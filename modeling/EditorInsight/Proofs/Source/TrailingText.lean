import EditorInsight.Proofs.Source.IndexedLabels

/-!
# What follows a header on its line

A header, or the line of a class, may have a body or a comment behind its colon. Both readers cut at the
last closing parenthesis that a header could end with, wherever it stands. So the text behind the colon is
left out exactly if it has no such parenthesis; otherwise it becomes a part of the signature.
-/

namespace EditorInsight

open Text

/-! Cutting at the last parenthesis. -/

section Cut

variable {β : Type} {accept : Text → Option β}

/-- What stands before the last closing parenthesis whose rest is accepted, and as what it is accepted. -/
def cutAtLast (accept : Text → Option β) : Text → Option (Text × β)
  | [] => none
  | c :: r =>
    match cutAtLast accept r with
    | some (x, b) => some (c :: x, b)
    | none => if c = ')' then (accept r).map ([], ·) else none

/-- The rest after some closing parenthesis is accepted. -/
def ClosesAgain (accept : Text → Option β) (t : Text) : Prop :=
  ∃ x y, t = x ++ ')' :: y ∧ (accept y).isSome = true

theorem not_closesAgain_nil : ¬ ClosesAgain accept [] := by
  rintro ⟨x, y, h, -⟩
  simp at h

theorem cutAtLast_append_of_some {t y : Text} {b : β} (h : cutAtLast accept t = some (y, b)) (x : Text) :
    cutAtLast accept (x ++ t) = some (x ++ y, b) := by
  induction x with
  | nil => exact h
  | cons c x ih => rw [List.cons_append, cutAtLast, ih, List.cons_append]

theorem cutAtLast_append_of_none {t x : Text} (h : cutAtLast accept t = none) (hx : ')' ∉ x) :
    cutAtLast accept (x ++ t) = none := by
  induction x with
  | nil => exact h
  | cons c x ih =>
    rw [List.mem_cons, not_or] at hx
    rw [List.cons_append, cutAtLast, ih hx.2]
    exact if_neg (Ne.symm hx.1)

theorem cutAtLast_append_cons {t : Text} {b : β} (h : cutAtLast accept t = none)
    (hb : accept t = some b) (x : Text) : cutAtLast accept (x ++ ')' :: t) = some (x, b) := by
  have hlast : cutAtLast accept (')' :: t) = some ([], b) := by
    rw [cutAtLast, h, hb]
    rfl
  rw [cutAtLast_append_of_some hlast, List.append_nil]

theorem cutAtLast_eq_none_iff {t : Text} : cutAtLast accept t = none ↔ ¬ ClosesAgain accept t := by
  constructor
  · rintro h ⟨x, y, rfl, hy⟩
    obtain ⟨b, hb⟩ := Option.isSome_iff_exists.mp hy
    cases hrest : cutAtLast accept y with
    | none => simp [cutAtLast_append_cons hrest hb] at h
    | some found =>
      have happend := cutAtLast_append_of_some hrest (x ++ [')'])
      rw [List.append_assoc, List.singleton_append, h] at happend
      cases happend
  · intro h
    induction t with
    | nil => rfl
    | cons c t ih =>
      have hrest : cutAtLast accept t = none := by
        refine ih ?_
        rintro ⟨x, y, rfl, hy⟩
        exact h ⟨c :: x, y, rfl, hy⟩
      rw [cutAtLast, hrest]
      by_cases hc : c = ')'
      · have hnone : accept t = none := by
          by_contra hsome
          exact h ⟨[], t, by rw [hc, List.nil_append], Option.isSome_iff_ne_none.mpr hsome⟩
        simp [hnone]
      · simp [hc]

theorem cutAtLast_eq_some_iff {t x : Text} {b : β} : cutAtLast accept t = some (x, b) ↔
    ∃ y, t = x ++ ')' :: y ∧ accept y = some b ∧ ¬ ClosesAgain accept y := by
  constructor
  · intro h
    induction t generalizing x with
    | nil => cases h
    | cons c t ih =>
      rw [cutAtLast] at h
      cases hrest : cutAtLast accept t with
      | some found =>
        rw [hrest] at h
        obtain ⟨rfl, rfl⟩ := Prod.mk.inj (Option.some.inj h)
        obtain ⟨y, rfl, hy⟩ := ih hrest
        exact ⟨y, rfl, hy⟩
      | none =>
        simp only [hrest] at h
        split at h
        · rename_i hc
          obtain ⟨b', hb', hfound⟩ := Option.map_eq_some_iff.mp h
          obtain ⟨rfl, rfl⟩ := Prod.mk.inj hfound
          exact ⟨t, by rw [hc, List.nil_append], hb', cutAtLast_eq_none_iff.mp hrest⟩
        · cases h
  · rintro ⟨y, rfl, hy, honce⟩
    exact cutAtLast_append_cons (cutAtLast_eq_none_iff.mpr honce) hy x

end Cut

namespace Header

theorem splitClosing?_eq_cutAtLast (t : Text) : splitClosing? t = cutAtLast closing? t := by
  induction t with
  | nil => rfl
  | cons c t ih =>
    rw [splitClosing?, cutAtLast, ih]
    cases cutAtLast closing? t <;> rfl

/-- A header can end before a colon, and before an arrow, a result and a colon; blanks may come first. -/
theorem closing?_eq_some_iff {t r : Text} : closing? t = some r ↔
    ∃ b, (∀ c ∈ b, isBlank c = true) ∧ ((∃ v, t = b ++ ':' :: v ∧ r = []) ∨
      ∃ w v, w ≠ [] ∧ ':' ∉ w ∧ t = b ++ '-' :: '>' :: (w ++ ':' :: v) ∧ r = trim w) := by
  constructor
  · intro h
    obtain ⟨b, hb, ht⟩ := exists_blanks_trimLeft t
    refine ⟨b, hb, ?_⟩
    unfold closing? at h
    split at h
    · rename_i v hv
      rw [hv] at ht
      exact Or.inl ⟨v, ht, (Option.some.inj h).symm⟩
    · obtain ⟨w, hw, rfl⟩ := Option.map_eq_some_iff.mp h
      obtain ⟨hne, hcolon, v, hv⟩ := resultText?_eq_some_iff.mp hw
      rw [hv] at ht
      exact Or.inr ⟨w, v, hne, hcolon, ht, rfl⟩
  · rintro ⟨b, hb, ⟨v, rfl, rfl⟩ | ⟨w, v, hne, hcolon, rfl, rfl⟩⟩
    · rw [closing?, trimLeft_blanks_append hb, trimLeft_cons (by decide)]
      rfl
    · have hresult := resultText?_append hne hcolon v
      rw [closing?, trimLeft_blanks_append hb, trimLeft_cons (by decide)]
      change (resultText? ('-' :: '>' :: (w ++ ':' :: v))).map trim = _
      rw [hresult]
      rfl

theorem closing?_append {t r : Text} (h : closing? t = some r) (s : Text) :
    closing? (t ++ s) = some r := by
  rw [closing?_eq_some_iff] at h ⊢
  obtain ⟨b, hb, ⟨v, rfl, hr⟩ | ⟨w, v, hne, hcolon, rfl, hr⟩⟩ := h
  · exact ⟨b, hb, Or.inl ⟨v ++ s, by simp, hr⟩⟩
  · exact ⟨b, hb, Or.inr ⟨w, v ++ s, hne, hcolon, by simp, hr⟩⟩

theorem endsHeader_append {t : Text} (h : endsHeader t = true) (s : Text) :
    endsHeader (t ++ s) = true := by
  rw [endsHeader_iff] at h ⊢
  obtain ⟨v, rfl⟩ | ⟨b, r, v, hb, hne, hcolon, rfl⟩ := h
  · exact .inl ⟨v ++ s, rfl⟩
  · exact .inr ⟨b, r, v ++ s, hb, hne, hcolon, by simp⟩

/-- Where a header can end, it can still end once blank runs are collapsed. -/
theorem isSome_closing?_collapsed {t : Text} (h : (closing? t).isSome = true) :
    (closing? (trimRight (collapseFrom false t))).isSome = true := by
  obtain ⟨r, hr⟩ := Option.isSome_iff_exists.mp h
  obtain ⟨b, hb, hform⟩ := closing?_eq_some_iff.mp hr
  have hblank : ∀ c ∈ collapseFrom false b, isBlank c = true := by
    intro c hc
    rcases mem_of_mem_collapseFrom hc with rfl | hc
    · decide
    · exact hb c hc
  rcases hform with ⟨v, rfl, -⟩ | ⟨w, v, hne, hcolon, rfl, -⟩
  · have hend : closing? (trimRight (collapseFrom false (b ++ ':' :: v))) = some [] := by
      rw [collapseFrom_append_cons (by decide), trimRight_append_cons (by decide)]
      exact closing?_eq_some_iff.mpr ⟨_, hblank, Or.inl ⟨_, rfl, rfl⟩⟩
    rw [hend]
    rfl
  · have hcolon' : ':' ∉ collapseFrom false w := by
      intro hmem
      rcases mem_of_mem_collapseFrom hmem with hspace | hmem
      · exact absurd hspace (by decide)
      · exact hcolon hmem
    have hcollapsed : trimRight (collapseFrom false (b ++ '-' :: '>' :: (w ++ ':' :: v))) =
        collapseFrom false b ++ '-' :: '>' ::
          (collapseFrom false w ++ ':' :: trimRight (collapseFrom false v)) := by
      have htrim := trimRight_append_cons (c := ':') (by decide)
        (collapseFrom false b ++ '-' :: '>' :: collapseFrom false w) (collapseFrom false v)
      rw [collapseFrom_append_cons (by decide), collapseFrom_cons (by decide),
        collapseFrom_append_cons (by decide)]
      simpa using htrim
    have hend : closing? (trimRight (collapseFrom false (b ++ '-' :: '>' :: (w ++ ':' :: v)))) =
        some (trim (collapseFrom false w)) := by
      rw [hcollapsed]
      exact closing?_eq_some_iff.mpr
        ⟨_, hblank, Or.inr ⟨_, _, collapseFrom_ne_nil hne, hcolon', rfl, rfl⟩⟩
    rw [hend]
    rfl

/-- Collapsing blank runs makes no new end: the characters that decide are not blank. -/
theorem isSome_closing?_of_collapsed {t : Text}
    (h : (closing? (collapseFrom false t)).isSome = true) : (closing? t).isSome = true := by
  obtain ⟨r, hr⟩ := Option.isSome_iff_exists.mp h
  obtain ⟨b, hb, hform⟩ := closing?_eq_some_iff.mp hr
  have hblank {u : Text} (hu : collapseFrom false u = b) : ∀ c ∈ u, isBlank c = true := by
    intro c hc
    by_contra hnot
    have hmem : c ∈ collapseFrom false u := mem_collapseFrom (Bool.eq_false_iff.mpr hnot) hc
    exact hnot (hb c (hu ▸ hmem))
  rcases hform with ⟨v, hv, -⟩ | ⟨w, v, hne, hcolon, hv, -⟩
  · obtain ⟨u, v', rfl, hu, -⟩ := exists_of_collapseFrom_eq (by decide) hv
    have hend := closing?_eq_some_iff.mpr ⟨u, hblank hu, Or.inl ⟨v', rfl, rfl⟩⟩
    rw [hend]
    rfl
  · obtain ⟨u, r₁, rfl, hu, hr₁⟩ := exists_of_collapseFrom_eq (by decide) hv
    obtain ⟨n, r₂, rfl, hn, hr₂⟩ := exists_of_collapseFrom_eq (x := []) (by decide) hr₁
    obtain ⟨w', v', rfl, hw', -⟩ := exists_of_collapseFrom_eq (by decide) hr₂
    obtain rfl : n = [] := by
      by_contra hnil
      exact collapseFrom_ne_nil hnil hn
    have hne' : w' ≠ [] := by
      rintro rfl
      exact hne hw'.symm
    have hcolon' : ':' ∉ w' := fun hmem => hcolon (hw' ▸ mem_collapseFrom (by decide) hmem)
    have hend := closing?_eq_some_iff.mpr
      ⟨u, hblank hu, Or.inr ⟨w', v', hne', hcolon', rfl, rfl⟩⟩
    rw [List.nil_append, hend]
    rfl

theorem closesAgain_collapsed (t : Text) :
    ClosesAgain closing? (trimRight (collapseFrom false t)) ↔ ClosesAgain closing? t := by
  constructor
  · rintro ⟨x, y, hxy, hy⟩
    obtain ⟨s, -, ht⟩ := exists_trimRight_blanks (collapseFrom false t)
    rw [hxy, List.append_assoc, List.cons_append] at ht
    obtain ⟨u, v, rfl, -, hv⟩ := exists_of_collapseFrom_eq (by decide) ht
    obtain ⟨r, hr⟩ := Option.isSome_iff_exists.mp hy
    refine ⟨u, v, rfl, isSome_closing?_of_collapsed ?_⟩
    rw [hv, closing?_append hr]
    rfl
  · rintro ⟨x, y, rfl, hy⟩
    refine ⟨collapseFrom false x, trimRight (collapseFrom false y), ?_, isSome_closing?_collapsed hy⟩
    rw [collapseFrom_append_cons (by decide), trimRight_append_cons (by decide)]

theorem length_format_lt_of_parameters {a b : Header} (hasync : a.isAsync = b.isAsync)
    (hname : a.name = b.name)
    (hlength : a.parameters.length +
      (if a.result.isEmpty then [] else (" -> " : Text) ++ a.result).length < b.parameters.length) :
    a.format.length < b.format.length := by
  obtain ⟨isAsync, name, parameters, result⟩ := a
  obtain ⟨isAsync', name', parameters', result'⟩ := b
  obtain rfl : isAsync = isAsync' := hasync
  obtain rfl : name = name' := hname
  simp only [format, List.isEmpty_nil, if_true, List.length_append] at hlength ⊢
  omega

end Header

theorem Outline.topLevel_of_findingAt? {layout : Layout} {line : Text} (hnewline : '\n' ∉ line)
    {f : Finding} {n : Nat} (h : findingAt? layout 0 line [] = some (f, n)) :
    (ofText layout line).topLevel.get? f.symbol.name = some f.symbol := by
  have hfindings : findingsOf layout line = [f] := by
    rw [findingsOf, splitLines_of_not_mem hnewline, findings, h]
    rfl
  rw [topLevel_get?_ofText, hfindings]
  simp

namespace WrittenHeader

theorem collapseFrom_ending_append (h : WrittenHeader) (t : Text) :
    collapseFrom false (h.ending ++ t) = h.collapsedEnding ++ collapseFrom false t := by
  obtain ⟨u, hu⟩ := h.exists_ending_concat
  rw [collapsedEnding, hu, List.append_assoc, List.singleton_append,
    collapseFrom_append_cons (by decide), collapseFrom_append_cons (by decide), List.append_assoc]
  rfl

theorem trimRight_collapsedEnding_append (h : WrittenHeader) (t : Text) :
    trimRight (h.collapsedEnding ++ t) = h.collapsedEnding ++ trimRight t := by
  obtain ⟨u, hu⟩ := h.exists_ending_concat
  have hcollapsed : h.collapsedEnding = collapseFrom false u ++ [':'] := by
    rw [collapsedEnding, hu, collapseFrom_append_cons (by decide)]
    rfl
  rw [hcollapsed, List.append_assoc, List.append_assoc, List.singleton_append, List.singleton_append,
    trimRight_append_cons (by decide)]

/-- The result as the signature gives it is shorter than the end of the header, which has a colon. -/
theorem length_result_lt (h : WrittenHeader) :
    (if h.parts.result.isEmpty then [] else (" -> " : Text) ++ h.parts.result).length <
      h.collapsedEnding.length := by
  unfold parts collapsedEnding ending
  cases h.result with
  | none => simp [collapseFrom_cons (show isBlank ':' = false by decide)]
  | some r =>
    have hcollapsed : collapseFrom false ((" ->" : Text) ++ (' ' :: r.text ++ [':'])) =
        (" -> " : Text) ++ (collapseFrom true r.text ++ [':']) := by
      have hcolon := collapseFrom_append_cons (c := ':') (by decide) true r.text []
      change (" -> " : Text) ++ collapseFrom true (r.text ++ [':']) = _
      rw [hcolon]
      rfl
    have hshort : (normalizeBlanks r.text).length ≤ (collapseFrom true r.text).length := by
      rw [normalizeBlanks_eq_trimRight]
      exact length_trimRight_le _
    simp only [hcollapsed]
    split
    · simp
    · simp only [List.length_append, List.length_singleton]
      omega

end WrittenHeader

/-- A name with a balanced text in parentheses behind it, all on one line. -/
structure Parenthesized where
  name : Text
  isIdentifier_name : isIdentifier name = true
  parameters : Text
  newline_not_mem : '\n' ∉ parameters
  balanced : Bracket.Balanced .round parameters

structure OneLineHeader extends Parenthesized where
  isAsync : Bool
  result : Option ResultText

namespace OneLineHeader

def frame (h : OneLineHeader) : WrittenHeader where
  isAsync := h.isAsync
  name := h.name
  isIdentifier_name := h.isIdentifier_name
  parameters := ⟨[], false, .empty⟩
  result := h.result

def text (h : OneLineHeader) : Text :=
  (if h.isAsync then ("async def " : Text) else "def ") ++
    (h.name ++ '(' :: (h.parameters ++ ')' :: h.frame.ending))

def parts (h : OneLineHeader) : Header where
  isAsync := h.isAsync
  name := h.name
  parameters := normalizeBlanks h.parameters
  result := h.frame.parts.result

theorem text_append (h : OneLineHeader) (t : Text) : h.text ++ t =
    h.frame.opening.text ++ (h.parameters ++ ')' :: (h.frame.ending ++ t)) := by
  have hopening := Opening.text_plain_append h.isAsync h.name h.isIdentifier_name
    (h.parameters ++ ')' :: (h.frame.ending ++ t))
  rw [show h.frame.opening = .plain h.isAsync h.name h.isIdentifier_name from rfl, hopening, text]
  simp only [List.append_assoc, List.cons_append]

/-! Reading the line. -/

theorem newline_not_mem_line (h : OneLineHeader) {t : Text} (ht : '\n' ∉ t) : '\n' ∉ h.text ++ t := by
  have hfront : '\n' ∉ h.frame.front .empty := h.frame.newline_not_mem_front (by simp [Gap.empty])
  have hending := h.frame.not_mem_ending.2.2
  have hparen : '\n' ≠ ')' := by decide
  rw [text_append]
  simp only [List.mem_append, List.mem_cons, h.newline_not_mem, hending, ht, hparen, or_false]
  exact hfront

theorem balance_line (h : OneLineHeader) {t : Text} (ht : Bracket.Balanced .round t) :
    Header.balance 0 (h.text ++ t) = 0 := by
  obtain ⟨hopen, hclose⟩ := h.frame.count_front .empty
  obtain ⟨hnoOpen, hnoClose, -⟩ := h.frame.not_mem_ending
  have hparameters : h.parameters.count ')' = h.parameters.count '(' := h.balanced.1
  have htrailing : t.count ')' = t.count '(' := ht.1
  have hfront : h.frame.front .empty = h.frame.opening.text := rfl
  rw [hfront] at hopen hclose
  rw [Header.balance_eq, text_append]
  simp only [List.count_append, List.count_cons, hopen, hclose, hparameters, htrailing,
    List.count_eq_zero_of_not_mem hnoOpen, List.count_eq_zero_of_not_mem hnoClose]
  simp
  omega

theorem trim_line (h : OneLineHeader) (t : Text) : trim (h.text ++ t) =
    h.frame.opening.text ++ (h.parameters ++ ')' :: (h.frame.ending ++ trimRight t)) := by
  obtain ⟨c, u, hc, hblank⟩ := h.frame.opening.exists_text_cons
  obtain ⟨e, he⟩ := h.frame.exists_ending_concat
  have hright : trimRight (h.frame.ending ++ t) = h.frame.ending ++ trimRight t := by
    rw [he, List.append_assoc, List.append_assoc, List.singleton_append, List.singleton_append,
      trimRight_append_cons (by decide)]
  have hleft (r : Text) : trimLeft (h.frame.opening.text ++ r) = h.frame.opening.text ++ r := by
    rw [hc, List.cons_append, trimLeft_cons hblank]
  rw [text_append, trim, hleft, Opening.trimRight_text_append, trimRight_append_cons (by decide), hright]

theorem isComplete_line (h : OneLineHeader) (t : Text) :
    Header.isComplete (trim (h.text ++ t)) = true := by
  have hends := Header.endsHeader_append h.frame.endsHeader_ending (trimRight t)
  rw [trim_line, ← List.append_assoc]
  exact Header.isComplete_append hends _

theorem collect?_line (h : OneLineHeader) {t : Text} (ht : Bracket.Balanced .round t) (maxLines : Int)
    (rest : List Text) :
    Header.collect? maxLines ((h.text ++ t) :: rest) = some ⟨trim (h.text ++ t), 1⟩ := by
  obtain ⟨c, u, hc, hblank⟩ := h.frame.opening.exists_text_cons
  have hstart : Header.isStart (h.text ++ t) = true := by
    rw [Header.isStart, text_append, hc, List.cons_append, trimLeft_cons hblank, ← List.cons_append, ← hc,
      Opening.opening?_text_append]
    rfl
  have hcomplete : Header.isComplete (Header.joinLine none (h.text ++ t)) = true := h.isComplete_line t
  rw [Header.collect?, if_pos hstart, Header.collectFrom_cons, h.balance_line ht, hcomplete]
  rfl

theorem normalizeBlanks_line (h : OneLineHeader) (t : Text) :
    normalizeBlanks (trim (h.text ++ t)) =
      h.frame.opening.text ++ (collapseFrom false h.parameters ++
        ')' :: (h.frame.collapsedEnding ++ trimRight (collapseFrom false t))) := by
  have hopening : h.frame.opening.collapsed = h.frame.opening := Opening.collapsed_plain _ _ _
  rw [normalizeBlanks_eq_join_words, words_trim, ← normalizeBlanks_eq_join_words, text_append,
    Opening.normalizeBlanks_text_append, hopening, collapseFrom_append_cons (by decide),
    trimRight_append_cons (by decide), h.frame.collapseFrom_ending_append,
    h.frame.trimRight_collapsedEnding_append]

theorem parse?_line (h : OneLineHeader) (t : Text) : Header.parse? (trim (h.text ++ t)) =
    (cutAtLast Header.closing? (collapseFrom false h.parameters ++
      ')' :: (h.frame.collapsedEnding ++ trimRight (collapseFrom false t)))).map
        fun cut => ⟨h.isAsync, h.name, trim cut.1, cut.2⟩ := by
  rw [Header.parse?, normalizeBlanks_line, Opening.opening?_text_append]
  simp only [Header.splitClosing?_eq_cutAtLast]
  generalize cutAtLast Header.closing? _ = cut
  cases cut <;> rfl

/-- Without a further end behind the colon, the header is read as it stands. -/
theorem parse?_of_not_closesAgain (h : OneLineHeader) {t : Text}
    (ht : ¬ ClosesAgain Header.closing? t) : Header.parse? (trim (h.text ++ t)) = some h.parts := by
  have hnone : cutAtLast Header.closing? (trimRight (collapseFrom false t)) = none :=
    cutAtLast_eq_none_iff.mpr fun hagain => ht ((Header.closesAgain_collapsed t).mp hagain)
  have hbehind := cutAtLast_append_of_none hnone h.frame.closing_not_mem_collapsedEnding
  have hclosing := Header.closing?_append h.frame.closing?_collapsedEnding
    (trimRight (collapseFrom false t))
  rw [parse?_line, cutAtLast_append_cons hbehind hclosing]
  rfl

/-- With a further end behind the colon, the parameters run on up to the last one. -/
theorem exists_parse?_of_closesAgain (h : OneLineHeader) {t : Text}
    (ht : ClosesAgain Header.closing? t) :
    ∃ x r, Header.parse? (trim (h.text ++ t)) = some ⟨h.isAsync, h.name,
      trim (collapseFrom false h.parameters ++ ')' :: (h.frame.collapsedEnding ++ x)), r⟩ := by
  cases hcut : cutAtLast Header.closing? (trimRight (collapseFrom false t)) with
  | none => exact absurd ((Header.closesAgain_collapsed t).mpr ht) (cutAtLast_eq_none_iff.mp hcut)
  | some cut =>
    obtain ⟨x, r⟩ := cut
    have hwhole := cutAtLast_append_of_some hcut
      (collapseFrom false h.parameters ++ ')' :: h.frame.collapsedEnding)
    refine ⟨x, r, ?_⟩
    rw [List.append_assoc, List.cons_append, List.append_assoc, List.cons_append] at hwhole
    rw [parse?_line, hwhole]
    rfl

/-! What is recorded. -/

theorem length_format_lt (h : OneLineHeader) (x r : Text) :
    h.parts.format.length < (⟨h.isAsync, h.name,
      trim (collapseFrom false h.parameters ++ ')' :: (h.frame.collapsedEnding ++ x)), r⟩ :
        Header).format.length := by
  have hparameters : (normalizeBlanks h.parameters).length ≤
      (trimLeft (collapseFrom false h.parameters)).length := length_trimRight_le _
  have hresult := h.frame.length_result_lt
  refine Header.length_format_lt_of_parameters rfl rfl ?_
  rw [trim_append_cons (by decide), h.frame.trimRight_collapsedEnding_append]
  simp only [List.length_append, List.length_cons]
  change (normalizeBlanks h.parameters).length + (if h.frame.parts.result.isEmpty then []
    else (" -> " : Text) ++ h.frame.parts.result).length < _
  omega

theorem topLevel_line (h : OneLineHeader) (layout : Outline.Layout) {t : Text} (hnewline : '\n' ∉ t)
    (hbalanced : Bracket.Balanced .round t) {hd : Header} (hname : hd.name = h.name)
    (hparse : Header.parse? (trim (h.text ++ t)) = some hd) :
    (Outline.ofText layout (h.text ++ t)).topLevel.get? h.name = some (Outline.functionSymbol hd) := by
  have hline := h.text_append t
  have hskip : isSkippable (h.text ++ t) = false := by
    rw [hline]
    exact h.frame.isSkippable_front_append .empty _
  have htop : isTopLevel (h.text ++ t) = true := by
    rw [hline]
    exact h.frame.isTopLevel_opening_append _
  have hbegins : Outline.beginsDefinition (trimRight (h.text ++ t)) = true := by
    rw [hline, Opening.trimRight_text_append]
    exact h.frame.beginsDefinition_opening_append _
  have hheader : Outline.headerAt? layout trimRight (h.text ++ t) [] = some (hd, 1) := by
    rw [Outline.headerAt?, if_pos hbegins, Header.read?, h.collect?_line hbalanced]
    simp only [hparse, Option.map_some]
  have hat : Outline.findingAt? layout 0 (h.text ++ t) [] =
      some (⟨0, Outline.functionSymbol hd, {}⟩, 0) := by
    rw [Outline.findingAt?, hskip, htop, hheader]
    rfl
  rw [← hname]
  exact Outline.topLevel_of_findingAt? (h.newline_not_mem_line hnewline) hat

end OneLineHeader

/-! Lines of classes. -/

namespace Outline

def colonBehind? (t : Text) : Option Unit := if (trimLeft t).head? = some ':' then some () else none

theorem isSome_colonBehind?_iff {t : Text} : (colonBehind? t).isSome = true ↔
    ∃ b v, (∀ c ∈ b, isBlank c = true) ∧ t = b ++ ':' :: v := by
  unfold colonBehind?
  constructor
  · intro h
    split at h
    · rename_i hcolon
      obtain ⟨b, hb, ht⟩ := exists_blanks_trimLeft t
      obtain ⟨v, hv⟩ := List.head?_eq_some_iff.mp hcolon
      exact ⟨b, v, hb, hv ▸ ht⟩
    · simp at h
  · rintro ⟨b, v, hb, rfl⟩
    rw [trimLeft_blanks_append hb, trimLeft_cons (by decide)]
    rfl

theorem splitBases?_eq_cutAtLast (t : Text) :
    splitBases? t = (cutAtLast colonBehind? t).map Prod.fst := by
  induction t with
  | nil => rfl
  | cons c t ih =>
    rw [splitBases?, cutAtLast, ih]
    cases cutAtLast colonBehind? t with
    | some cut => rfl
    | none =>
      by_cases hc : c = ')' <;> by_cases hcolon : (trimLeft t).head? = some ':' <;>
        simp [colonBehind?, hc, hcolon]

theorem closesAgain_trimRight (t : Text) :
    ClosesAgain colonBehind? (trimRight t) ↔ ClosesAgain colonBehind? t := by
  constructor
  · rintro ⟨x, y, hxy, hy⟩
    obtain ⟨s, -, ht⟩ := exists_trimRight_blanks t
    obtain ⟨b, v, hb, rfl⟩ := isSome_colonBehind?_iff.mp hy
    refine ⟨x, b ++ ':' :: (v ++ s), ?_, isSome_colonBehind?_iff.mpr ⟨b, v ++ s, hb, rfl⟩⟩
    rw [hxy] at ht
    simpa using ht
  · rintro ⟨x, y, rfl, hy⟩
    obtain ⟨b, v, hb, rfl⟩ := isSome_colonBehind?_iff.mp hy
    refine ⟨x, b ++ ':' :: trimRight v, ?_, isSome_colonBehind?_iff.mpr ⟨b, trimRight v, hb, rfl⟩⟩
    rw [trimRight_append_cons (by decide), trimRight_append_cons (by decide)]

end Outline

namespace Parenthesized

def classText (c : Parenthesized) : Text :=
  ("class " : Text) ++ (c.name ++ '(' :: (c.parameters ++ [')', ':']))

theorem classText_append (c : Parenthesized) (t : Text) : c.classText ++ t =
    ("class " : Text) ++ (c.name ++ '(' :: (c.parameters ++ ')' :: ':' :: t)) := by
  have hline (k : Text) : k ++ (c.name ++ '(' :: (c.parameters ++ [')', ':'])) ++ t =
      k ++ (c.name ++ '(' :: (c.parameters ++ ')' :: ':' :: t)) := by simp
  exact hline "class "

theorem trimRight_class_line (c : Parenthesized) (t : Text) : trimRight (c.classText ++ t) =
    ("class" : Text) ++ ([' '] ++ (c.name ++ '(' :: (c.parameters ++ ')' :: ':' :: trimRight t))) := by
  have hcolon (k r : Text) : k ++ (c.name ++ '(' :: (c.parameters ++ ')' :: ':' :: r)) =
      (k ++ (c.name ++ '(' :: (c.parameters ++ [')']))) ++ ':' :: r := by simp
  rw [classText_append, hcolon, trimRight_append_cons (by decide), ← hcolon]
  rfl

theorem classLine?_class_line (c : Parenthesized) (t : Text) :
    Outline.classLine? (trimRight (c.classText ++ t)) =
      (cutAtLast Outline.colonBehind? (c.parameters ++ ')' :: ':' :: trimRight t)).map
        fun cut => (c.name, trim cut.1) := by
  have hname := c.isIdentifier_name
  have hskip (r : Text) : skipBlanks1? ([' '] ++ (c.name ++ r)) = some (c.name ++ r) := by
    cases hc : c.name with
    | nil => simp [hc, isIdentifier] at hname
    | cons d n =>
      have hd := isBlank_of_mem_identifier hname (hc ▸ List.mem_cons_self)
      exact skipBlanks1?_blanks_append (by simp) (by decide) hd _
  have hread (r : Text) : identifier? (c.name ++ '(' :: r) = some (c.name, '(' :: r) :=
    identifier?_append hname (by simp; decide)
  rw [trimRight_class_line, Outline.classLine?, after?_append, Option.bind_some, hskip,
    Option.bind_some, hread]
  simp only
  rw [trimLeft_cons (by decide)]
  simp only [Outline.splitBases?_eq_cutAtLast, Option.map_map]
  rfl

theorem topLevel_class_line (c : Parenthesized) (layout : Outline.Layout) {t bases : Text}
    (hnewline : '\n' ∉ t)
    (hclass : Outline.classLine? (trimRight (c.classText ++ t)) = some (c.name, bases)) :
    (Outline.ofText layout (c.classText ++ t)).topLevel.get? c.name =
      some (Outline.classSymbol c.name bases) := by
  have hname : '\n' ∉ c.name := not_mem_identifier c.isIdentifier_name (by decide)
  have hline : '\n' ∉ c.classText ++ t := by
    have hkeyword : '\n' ∉ ("class " : Text) := by decide
    rw [classText_append]
    simp only [List.mem_append, List.mem_cons, hname, c.newline_not_mem, hnewline, hkeyword]
    decide
  have hskip : isSkippable (c.classText ++ t) = false := by
    have htrim : trim (c.classText ++ t) = trimRight (c.classText ++ t) := by
      rw [trim, show trimLeft (c.classText ++ t) = c.classText ++ t from trimLeft_cons (by decide) _]
    rw [isSkippable, htrim, trimRight_class_line]
    rfl
  have htop : isTopLevel (c.classText ++ t) = true := rfl
  have hheader : Outline.headerAt? layout trimRight (c.classText ++ t) [] = none := by
    rw [Outline.headerAt?, trimRight_class_line]
    rfl
  have hat : Outline.findingAt? layout 0 (c.classText ++ t) [] =
      some (⟨0, Outline.classSymbol c.name bases, {}⟩, 0) := by
    rw [Outline.findingAt?, hskip, htop, hheader, hclass]
    rfl
  exact Outline.topLevel_of_findingAt? hline hat

theorem length_signature_lt (c : Parenthesized) (x : Text) :
    (Outline.classSymbol c.name (trim c.parameters)).signature.length <
      (Outline.classSymbol c.name (trim (c.parameters ++ ')' :: ':' :: x))).signature.length := by
  have hparameters : (trim c.parameters).length ≤ (trimLeft c.parameters).length :=
    length_trimRight_le _
  have hcolon : trimRight (':' :: x) = ':' :: trimRight x := trimRight_append_cons (by decide) [] x
  have hbases : (trimLeft c.parameters ++ ')' :: ':' :: trimRight x).isEmpty = false := by simp
  rw [trim_append_cons (by decide), hcolon]
  simp only [Outline.classSymbol, List.length_append, hbases]
  split
  · simp
  · simp only [Bool.false_eq_true, if_false, List.length_append, List.length_cons]
    omega

theorem topLevel_class_line_of_not_closesAgain (c : Parenthesized) (layout : Outline.Layout) {t : Text}
    (hnewline : '\n' ∉ t) (ht : ¬ ClosesAgain Outline.colonBehind? t) :
    (Outline.ofText layout (c.classText ++ t)).topLevel.get? c.name =
      some (Outline.classSymbol c.name (trim c.parameters)) := by
  have hnone : cutAtLast Outline.colonBehind? (trimRight t) = none :=
    cutAtLast_eq_none_iff.mpr fun hagain => ht ((Outline.closesAgain_trimRight t).mp hagain)
  have hbehind : cutAtLast Outline.colonBehind? (':' :: trimRight t) = none :=
    cutAtLast_append_of_none (x := [':']) hnone (by decide)
  refine c.topLevel_class_line layout hnewline ?_
  rw [classLine?_class_line, cutAtLast_append_cons hbehind (b := ()) rfl]
  rfl

theorem exists_topLevel_class_line_of_closesAgain (c : Parenthesized) (layout : Outline.Layout)
    {t : Text} (hnewline : '\n' ∉ t) (ht : ClosesAgain Outline.colonBehind? t) :
    ∃ x, (Outline.ofText layout (c.classText ++ t)).topLevel.get? c.name =
      some (Outline.classSymbol c.name (trim (c.parameters ++ ')' :: ':' :: x))) := by
  cases hcut : cutAtLast Outline.colonBehind? (trimRight t) with
  | none => exact absurd ((Outline.closesAgain_trimRight t).mpr ht) (cutAtLast_eq_none_iff.mp hcut)
  | some cut =>
    have hwhole := cutAtLast_append_of_some hcut (c.parameters ++ [')', ':'])
    rw [List.append_assoc, List.append_assoc] at hwhole
    refine ⟨cut.1, c.topLevel_class_line layout hnewline ?_⟩
    rw [classLine?_class_line]
    exact congrArg (Option.map _) hwhole

end Parenthesized

/-- What stands behind the colon is left out of the symbol exactly if no closing parenthesis in it is
followed by what could end the header; for a class, by a colon. -/
theorem OneLineHeader.symbol_unchanged_iff (layout : Outline.Layout) (h : OneLineHeader) (t : Text)
    (hnewline : '\n' ∉ t) (hbalanced : Bracket.Balanced .round t) :
    ((Outline.ofText layout h.text).topLevel.get? h.name = some (Outline.functionSymbol h.parts) ∧
      ((Outline.ofText layout (h.text ++ t)).topLevel.get? h.name =
        (Outline.ofText layout h.text).topLevel.get? h.name ↔ ¬ ClosesAgain Header.closing? t)) ∧
    (Outline.ofText layout h.classText).topLevel.get? h.name =
        some (Outline.classSymbol h.name (trim h.parameters)) ∧
      ((Outline.ofText layout (h.classText ++ t)).topLevel.get? h.name =
        (Outline.ofText layout h.classText).topLevel.get? h.name ↔
          ¬ ClosesAgain Outline.colonBehind? t) := by
  have hclean {u : Text} (hu : '\n' ∉ u) (hb : Bracket.Balanced .round u)
      (hno : ¬ ClosesAgain Header.closing? u) :
      (Outline.ofText layout (h.text ++ u)).topLevel.get? h.name =
        some (Outline.functionSymbol h.parts) :=
    h.topLevel_line layout hu hb rfl (h.parse?_of_not_closesAgain hno)
  have halone := hclean (u := []) (by simp) (by decide) not_closesAgain_nil
  have hclass := h.topLevel_class_line_of_not_closesAgain layout (t := []) (by simp)
    not_closesAgain_nil
  rw [List.append_nil] at halone hclass
  rw [halone, hclass]
  refine ⟨⟨rfl, ?_, hclean hnewline hbalanced⟩, rfl, ?_, ?_⟩
  · -- a signature that has run on is too long to be the one of the header alone
    intro hsame hagain
    obtain ⟨x, r, hparse⟩ := h.exists_parse?_of_closesAgain hagain
    rw [h.topLevel_line layout hnewline hbalanced rfl hparse] at hsame
    have hformat := congrArg (fun s => s.signature.length) (Option.some.inj hsame)
    exact absurd hformat (Nat.ne_of_gt (h.length_format_lt x r))
  · intro hsame hagain
    obtain ⟨x, hx⟩ := h.exists_topLevel_class_line_of_closesAgain layout hnewline hagain
    rw [hx] at hsame
    have hsignature := congrArg (fun s => s.signature.length) (Option.some.inj hsame)
    exact absurd hsignature (Nat.ne_of_gt (h.length_signature_lt x))
  · exact h.topLevel_class_line_of_not_closesAgain layout hnewline

theorem OneLineHeader.symbol_unchanged_iff_called :
    let h : OneLineHeader :=
      ⟨⟨"f", by decide, "a=(1, 2)", by decide, by decide +kernel⟩, false,
        some ⟨"int", by decide, by decide, by decide, by decide, by decide, by decide⟩⟩
    let t : Text := " return g(a)  # (ok)"
    h.text ++ t = ("def f(a=(1, 2)) -> int: return g(a)  # (ok)" : Text) ∧
    h.classText ++ t = ("class f(a=(1, 2)): return g(a)  # (ok)" : Text) ∧
    '\n' ∉ t ∧ Bracket.Balanced .round t ∧
    (Outline.ofText {} (h.text ++ t)).topLevel.get? "f" =
      (Outline.ofText {} h.text).topLevel.get? "f" ∧
    (Outline.ofText {} (h.classText ++ t)).topLevel.get? "f" =
      (Outline.ofText {} h.classText).topLevel.get? "f" := by
  intro h t
  have hnewline : '\n' ∉ t := by decide
  have hbalanced : Bracket.Balanced .round t := by decide +kernel
  have hunchanged := h.symbol_unchanged_iff {} t hnewline hbalanced
  exact ⟨by decide +kernel, by decide +kernel, hnewline, hbalanced,
    hunchanged.1.2.mpr (cutAtLast_eq_none_iff.mp (by decide +kernel)),
    hunchanged.2.2.mpr (cutAtLast_eq_none_iff.mp (by decide +kernel))⟩

/-- A body with a closing parenthesis and a colon behind it becomes a part of the signature. -/
theorem OneLineHeader.body_in_signature :
    let h : OneLineHeader :=
      ⟨⟨"f", by decide, "a", by decide, by decide +kernel⟩, false, none⟩
    let t : Text := " y = \x7b(a): 1\x7d"
    '\n' ∉ t ∧ Bracket.Balanced .round t ∧
    (Outline.ofText {} h.text).topLevel.get? "f" = some ⟨.function, "f", "def f(a)"⟩ ∧
    (Outline.ofText {} (h.text ++ t)).topLevel.get? "f" =
      some ⟨.function, "f", "def f(a): y = \x7b(a)"⟩ ∧
    (Outline.ofText {} h.classText).topLevel.get? "f" = some ⟨.classDecl, "f", "class f(a)"⟩ ∧
    (Outline.ofText {} (h.classText ++ t)).topLevel.get? "f" =
      some ⟨.classDecl, "f", "class f(a): y = \x7b(a)"⟩ := by
  decide +kernel

end EditorInsight
