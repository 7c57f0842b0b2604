import EditorInsight.Proofs.Source.CollectedLines
import EditorInsight.Proofs.Source.Opening
import EditorInsight.Proofs.Source.ParameterList
import EditorInsight.Proofs.Text.Lines

/-!
# Headers as they are written

A header with its name, its parameter list and its result, spread over lines wherever its parameter list
has blanks. The reader of headers takes exactly its lines and finds its name and its parameters, and a
signature made of these shows the labels of the parameter list.
-/

namespace EditorInsight

open Text

namespace Header

/-! The end of a header. -/

theorem splitClosing?_of_not_mem {t : Text} (h : ')' ∉ t) : splitClosing? t = none := by
  induction t with
  | nil => rfl
  | cons c t ih =>
    rw [List.mem_cons, not_or] at h
    rw [splitClosing?, ih h.2]
    exact if_neg (Ne.symm h.1)

/-- The header is cut at its last parenthesis. -/
theorem splitClosing?_append {t result : Text} (ht : ')' ∉ t) (h : closing? t = some result) (x : Text) :
    splitClosing? (x ++ ')' :: t) = some (x, result) := by
  induction x with
  | nil => simp [splitClosing?, splitClosing?_of_not_mem ht, h]
  | cons c x ih => rw [List.cons_append, splitClosing?, ih]

/-! Collecting lines. -/

/-- Lines are collected up to the first that balances the parentheses and completes the header. -/
theorem collectFrom_eq_some (joined : Option Text) (used : Nat) {depth budget : Int}
    {lines : List Text} (hne : lines ≠ []) (hbudget : lines.length ≤ budget)
    (hopen : ∀ m, 0 < m → m < lines.length → balance depth (lines.take m).flatten ≠ 0)
    (hbalance : balance depth lines.flatten = 0)
    (hcomplete : isComplete (join [' '] (joined.toList ++ lines.map trim)) = true)
    (rest : List Text) :
    collectFrom joined used depth budget (lines ++ rest) =
      some ⟨join [' '] (joined.toList ++ lines.map trim), used + lines.length⟩ := by
  obtain ⟨n, hn⟩ := Nat.exists_eq_add_one_of_ne_zero (mt List.length_eq_zero_iff.mp hne)
  have htake : (lines ++ rest).take (n + 1) = lines := by rw [← hn, List.take_left]
  refine collectFrom_eq_some_iff.mpr ⟨n, ?_, .inr (by omega), ⟨?_, ?_⟩, fun m hm hstop => ?_, ?_⟩
  · rw [List.length_append]
    omega
  · rw [htake, hbalance]
  · rw [joinedText, htake, hcomplete]
  · -- fewer lines leave a parenthesis open
    apply hopen (m + 1) (Nat.succ_pos m) (by omega)
    rw [← List.take_append_of_le_length (by omega)]
    exact hstop.1
  · rw [joinedText, htake, hn]

end Header

/-- What a header says about its result. -/
structure ResultText where
  text : Text
  ne_nil : text ≠ []
  trimmed : trim text = text
  colon_not_mem : ':' ∉ text
  opening_not_mem : '(' ∉ text
  closing_not_mem : ')' ∉ text
  newline_not_mem : '\n' ∉ text

/-- A header as it can stand in a text. -/
structure WrittenHeader where
  isAsync : Bool
  name : Text
  isIdentifier_name : isIdentifier name = true
  parameters : ParameterList
  result : Option ResultText

namespace WrittenHeader

def opening (h : WrittenHeader) : Opening := .plain h.isAsync h.name h.isIdentifier_name

def ending (h : WrittenHeader) : Text :=
  match h.result with
  | none => [':']
  | some r => (" ->" : Text) ++ (' ' :: r.text ++ [':'])

def text (h : WrittenHeader) : Text := h.opening.text ++ (h.parameters.text ++ ')' :: h.ending)

def parts (h : WrittenHeader) : Header where
  isAsync := h.isAsync
  name := h.name
  parameters := h.parameters.collapsed.trimmed.text
  result := match h.result with
    | none => []
    | some r => normalizeBlanks r.text

/-! The end of the header. -/

theorem not_mem_ending (h : WrittenHeader) : '(' ∉ h.ending ∧ ')' ∉ h.ending ∧ '\n' ∉ h.ending := by
  unfold ending
  split
  · decide
  · rename_i r _
    simp [r.opening_not_mem, r.closing_not_mem, r.newline_not_mem]

theorem endsHeader_ending (h : WrittenHeader) : Header.endsHeader h.ending = true := by
  unfold ending
  split
  · rfl
  · rename_i r _
    have hread := Header.resultText?_append (u := ' ' :: r.text) (by simp) (by simp [r.colon_not_mem]) []
    have htrim : trimLeft ((" ->" : Text) ++ (' ' :: r.text ++ [':'])) =
        '-' :: '>' :: (' ' :: r.text ++ [':']) := rfl
    change (Header.resultText? (trimLeft ((" ->" : Text) ++ (' ' :: r.text ++ [':'])))).isSome = true
    rw [htrim, hread]
    rfl

theorem exists_ending_concat (h : WrittenHeader) : ∃ u, h.ending = u ++ [':'] := by
  unfold ending
  split
  · exact ⟨[], rfl⟩
  · exact ⟨_, (List.append_assoc _ _ _).symm⟩

def collapsedEnding (h : WrittenHeader) : Text := collapseFrom false h.ending

theorem trimRight_collapsedEnding (h : WrittenHeader) :
    trimRight h.collapsedEnding = h.collapsedEnding := by
  obtain ⟨u, hu⟩ := h.exists_ending_concat
  rw [collapsedEnding, hu, collapseFrom_append_cons (by decide), trimRight_append_cons (by decide)]
  rfl

theorem closing_not_mem_collapsedEnding (h : WrittenHeader) : ')' ∉ h.collapsedEnding := by
  intro hmem
  rcases mem_of_mem_collapseFrom hmem with hspace | hmem
  · exact absurd hspace (by decide)
  · exact h.not_mem_ending.2.1 hmem

theorem closing?_collapsedEnding (h : WrittenHeader) :
    Header.closing? h.collapsedEnding = some h.parts.result := by
  unfold collapsedEnding ending parts
  cases h.result with
  | none => rfl
  | some r =>
    have hcollapsed : collapseFrom false ((" ->" : Text) ++ (' ' :: r.text ++ [':'])) =
        (" ->" : Text) ++ (' ' :: collapseFrom true r.text ++ [':']) := by
      have hcolon := collapseFrom_append_cons (c := ':') (by decide) true r.text []
      change (" -> " : Text) ++ collapseFrom true (r.text ++ [':']) = _
      rw [hcolon]
      rfl
    have hcolon : ':' ∉ ' ' :: collapseFrom true r.text := by
      intro hmem
      rcases List.mem_cons.mp hmem with hspace | hmem
      · exact absurd hspace (by decide)
      · rcases mem_of_mem_collapseFrom hmem with hspace | hmem
        · exact absurd hspace (by decide)
        · exact r.colon_not_mem hmem
    have hresult : trim (' ' :: collapseFrom true r.text) = normalizeBlanks r.text := by
      have hspace := trim_blanks_append (b := [' ']) (by decide) (collapseFrom true r.text)
      rw [List.singleton_append] at hspace
      rw [hspace, trim, trimLeft_collapseFrom_true, normalizeBlanks_eq_trimRight]
    have hread := Header.resultText?_append (by simp) hcolon []
    simp only [hcollapsed]
    change (Header.resultText? ('-' :: '>' :: (' ' :: collapseFrom true r.text ++ [':']))).map trim = _
    rw [hread, ← hresult]
    rfl

/-! The header's text with single spaces. -/

theorem normalizeBlanks_text (h : WrittenHeader) : normalizeBlanks h.text =
    h.opening.text ++ (h.parameters.collapsed.text ++ ')' :: h.collapsedEnding) := by
  have hopening : h.opening.collapsed = h.opening := Opening.collapsed_plain _ _ _
  rw [text, Opening.normalizeBlanks_text_append, collapseFrom_append_cons (by decide),
    trimRight_append_cons (by decide), ParameterList.collapseFrom_text, hopening]
  exact congrArg (fun e => _ ++ (_ ++ ')' :: e)) h.trimRight_collapsedEnding

/-- A text that normalizes like the header is read as the header. -/
theorem parse?_eq_parts (h : WrittenHeader) {t : Text} (ht : normalizeBlanks t = normalizeBlanks h.text) :
    Header.parse? t = some h.parts := by
  rw [Header.parse?, ht, normalizeBlanks_text, Opening.opening?_text_append]
  simp only [Header.splitClosing?_append h.closing_not_mem_collapsedEnding h.closing?_collapsedEnding]
  rw [ParameterList.trim_text]
  rfl

/-! The header's lines. -/

def front (h : WrittenHeader) (indent : Gap) : Text := indent.val ++ h.opening.text

theorem front_eq (h : WrittenHeader) (indent : Gap) : h.front indent =
    indent.val ++ ((if h.isAsync then ("async def " : Text) else "def ") ++ (h.name ++ ['('])) := by
  have hopening := Opening.text_plain_append h.isAsync h.name h.isIdentifier_name []
  rw [List.append_nil] at hopening
  rw [front, opening, hopening]

theorem count_front (h : WrittenHeader) (indent : Gap) :
    (h.front indent).count '(' = 1 ∧ (h.front indent).count ')' = 0 := by
  have hname {c : Char} (hc : isIdentPart c = false) : h.name.count c = 0 :=
    List.count_eq_zero_of_not_mem (not_mem_identifier h.isIdentifier_name hc)
  have hindent {c : Char} (hc : isBlank c = false) : indent.val.count c = 0 :=
    List.count_eq_zero_of_not_mem fun hmem => by simp [indent.property c hmem] at hc
  rw [front_eq]
  simp only [List.count_append, hname (c := '(') (by decide), hname (c := ')') (by decide),
    hindent (c := '(') (by decide), hindent (c := ')') (by decide), List.count_cons, List.count_nil]
  cases h.isAsync <;> decide

theorem front_concat (h : WrittenHeader) (indent : Gap) : ∃ u, h.front indent = u ++ ['('] := by
  refine ⟨indent.val ++ ((if h.isAsync then ("async def " : Text) else "def ") ++ h.name), ?_⟩
  rw [front_eq]
  simp only [List.append_assoc]

theorem newline_not_mem_front (h : WrittenHeader) {indent : Gap} (hindent : '\n' ∉ indent.val) :
    '\n' ∉ h.front indent := by
  have hname := not_mem_identifier h.isIdentifier_name (c := '\n') (by decide)
  have hkeyword : '\n' ∉ (if h.isAsync then ("async def " : Text) else "def ") := by
    cases h.isAsync <;> decide
  rw [front_eq]
  simp only [List.mem_append, List.mem_singleton, hindent, hkeyword, hname, false_or]
  decide

/-- A line end between two texts without one stands in the text that is between them. -/
theorem exists_prefix_of_newline {front mid back x y : Text} (hfront : '\n' ∉ front)
    (hback : '\n' ∉ back) (h : front ++ (mid ++ back) = x ++ '\n' :: y) :
    ∃ p, x = front ++ p ∧ p <+: mid := by
  obtain ⟨p, rfl, hp⟩ := exists_append_of_not_mem hfront h
  refine ⟨p, rfl, ?_⟩
  rcases List.append_eq_append_iff.mp hp with ⟨q, rfl, hq⟩ | ⟨q, rfl, -⟩
  · exact absurd (by rw [hq]; simp) hback
  · exact List.prefix_append p q

theorem indented_text_eq (h : WrittenHeader) (indent : Gap) : indent.val ++ h.text =
    h.front indent ++ (h.parameters.text ++ ')' :: h.ending) := by
  simp [front, text]

/-- The parentheses of the header are balanced after its last line and not before. -/
theorem balance_lines (h : WrittenHeader) {indent : Gap} (hindent : '\n' ∉ indent.val) :
    Header.balance 0 (splitLines (indent.val ++ h.text)).flatten = 0 ∧
      ∀ m, 0 < m → m < (splitLines (indent.val ++ h.text)).length →
        Header.balance 0 ((splitLines (indent.val ++ h.text)).take m).flatten ≠ 0 := by
  have hsplits := splitsInto_splitLines (indent.val ++ h.text)
  have hparameters := h.parameters.balanced_text .round
  obtain ⟨hopen, hclose⟩ := h.count_front indent
  obtain ⟨hnoOpen, hnoClose, hnoNewline⟩ := h.not_mem_ending
  constructor
  · have hcount : h.parameters.text.count ')' = h.parameters.text.count '(' := hparameters.1
    rw [Header.balance_eq, hsplits.count_flatten (by decide) (by decide),
      hsplits.count_flatten (by decide) (by decide), indented_text_eq]
    simp only [List.count_append, List.count_cons, hopen, hclose, hcount,
      List.count_eq_zero_of_not_mem hnoOpen, List.count_eq_zero_of_not_mem hnoClose]
    simp
    omega
  · intro m hm hlt
    obtain ⟨x, y, hx, hcount⟩ := hsplits.exists_count_take hlt hm
    rw [indented_text_eq] at hx
    obtain ⟨p, rfl, hp⟩ := exists_prefix_of_newline (h.newline_not_mem_front hindent)
      (by simp [hnoNewline]) hx
    have hcovered : p.count ')' ≤ p.count '(' := hparameters.2 p hp
    rw [Header.balance_eq, hcount '(' (by decide) (by decide), hcount ')' (by decide) (by decide),
      List.count_append, List.count_append, hopen, hclose]
    omega

theorem trim_append_ending (h : WrittenHeader) (t : Text) :
    ∃ u, trim (t ++ ')' :: h.ending) = u ++ ')' :: h.ending := by
  obtain ⟨e, he⟩ := h.exists_ending_concat
  have hending : trimRight h.ending = h.ending := by
    rw [he, trimRight_append_cons (by decide)]
    rfl
  refine ⟨trimLeft t, ?_⟩
  rw [trim_append_cons (by decide), hending]

theorem isComplete_lines (h : WrittenHeader) (indent : Gap) :
    Header.isComplete (join [' '] ((splitLines (indent.val ++ h.text)).map trim)) = true := by
  have hnewline : '\n' ∉ ')' :: h.ending := by simp [h.not_mem_ending.2.2]
  obtain ⟨init, last, -, hlines⟩ :=
    exists_splitLines_append_right hnewline (h.front indent ++ h.parameters.text)
  obtain ⟨u, hu⟩ := h.trim_append_ending last
  obtain ⟨v, hv⟩ := exists_join_append [' '] (init.map trim) (u ++ ')' :: h.ending)
  rw [indented_text_eq, ← List.append_assoc, hlines, List.map_append, List.map_singleton, hu, hv,
    ← List.append_assoc]
  exact Header.isComplete_append h.endsHeader_ending (v ++ u)

theorem exists_splitLines (h : WrittenHeader) {indent : Gap} (hindent : '\n' ∉ indent.val) :
    ∃ r others, splitLines (indent.val ++ h.text) = (h.front indent ++ r) :: others := by
  obtain ⟨u, hu⟩ := h.front_concat indent
  cases hr : splitLines (h.parameters.text ++ ')' :: h.ending) with
  | nil => exact absurd hr (splitLines_ne_nil _)
  | cons r others =>
    refine ⟨r, others, ?_⟩
    rw [indented_text_eq]
    exact splitLines_append_left (h.newline_not_mem_front hindent) (by simp [hu]) hr

/-- The header is read from its lines, whatever follows them. -/
theorem read?_eq_parts (h : WrittenHeader) {indent : Gap} (hindent : '\n' ∉ indent.val) {maxLines : Int}
    (hmax : ((splitLines (indent.val ++ h.text)).length : Int) ≤ maxLines) (rest : List Text) :
    Header.read? maxLines (splitLines (indent.val ++ h.text) ++ rest) =
      some (h.parts, (splitLines (indent.val ++ h.text)).length) := by
  obtain ⟨hbalance, hopen⟩ := h.balance_lines hindent
  have hcollect := Header.collectFrom_eq_some none 0 (splitLines_ne_nil _) hmax hopen hbalance
    (h.isComplete_lines indent) rest
  have hwords : normalizeBlanks (indent.val ++ h.text) = normalizeBlanks h.text := by
    rw [normalizeBlanks_eq_join_words, words_blanks_append indent.property,
      ← normalizeBlanks_eq_join_words]
  have hparse := h.parse?_eq_parts
    ((normalizeBlanks_joined_lines (indent.val ++ h.text)).trans hwords)
  obtain ⟨r, others, hlines⟩ := h.exists_splitLines hindent
  have hstart : Header.isStart (h.front indent ++ r) = true := by
    obtain ⟨c, u, hc, hblank⟩ := h.opening.exists_text_cons
    have htrim : trimLeft (h.front indent ++ r) = h.opening.text ++ r := by
      rw [front, List.append_assoc, trimLeft_blanks_append indent.property, hc, List.cons_append,
        trimLeft_cons hblank]
    rw [Header.isStart, htrim, Opening.opening?_text_append]
    rfl
  have hcollected : Header.collect? maxLines (splitLines (indent.val ++ h.text) ++ rest) =
      some ⟨join [' '] ((splitLines (indent.val ++ h.text)).map trim),
        (splitLines (indent.val ++ h.text)).length⟩ := by
    rw [hlines] at hcollect ⊢
    rw [List.cons_append] at hcollect ⊢
    simp only [Header.collect?, hstart, if_true, hcollect]
    simp
  rw [Header.read?, hcollected]
  simp only [hparse, Option.map_some]

theorem parameterLabels_format (h : WrittenHeader) {owner : Text} (howner : '(' ∉ owner) :
    parameterLabels (h.parts.format owner) = h.parameters.labels := by
  have hname : '(' ∉ h.name := not_mem_identifier h.isIdentifier_name (by decide)
  have hkeyword : '(' ∉ (if h.isAsync then ("async def " : Text) else "def ") := by
    cases h.isAsync <;> decide
  have hqualified : '(' ∉ if owner.isEmpty then h.name else owner ++ ['.'] ++ h.name := by
    split
    · exact hname
    · simp [howner, hname]
  have hparameters := parameterText?_append
    (fun hmem => (List.mem_append.mp hmem).elim hkeyword hqualified)
    (h.parameters.collapsed.trimmed.balanced_text .round)
    (if h.parts.result.isEmpty then [] else (" -> " : Text) ++ h.parts.result)
  have hformat : h.parts.format owner =
      ((if h.isAsync then ("async def " : Text) else "def ") ++
        if owner.isEmpty then h.name else owner ++ ['.'] ++ h.name) ++
        '(' :: (h.parameters.collapsed.trimmed.text ++
          ')' :: if h.parts.result.isEmpty then [] else (" -> " : Text) ++ h.parts.result) := by
    simp only [Header.format, List.append_assoc, List.singleton_append]
    rfl
  rw [parameterLabels, hformat, hparameters]
  simp only
  rw [ParameterList.trim_text, ParameterList.splitTopLevel_text, ParameterList.labels_trimmed,
    ParameterList.labels_trimmed, ParameterList.labels_collapsed]

end WrittenHeader
end EditorInsight
