import EditorInsight.Proofs.Source.TrailingText

/-!
# Headers as they are parsed

Lines that are collected to a header are always parsed, and the name is the one on the first of them. The parts
of a parsed header have a form of their own: their blanks are single spaces, the result has no colon, and no
parenthesis in it could end the header. The text that is made of such parts is parsed to the same parts.
-/

namespace EditorInsight

open Text

namespace Header

/-! What is collected is parsed. -/

theorem closesAgain_of_isComplete {t : Text} (h : isComplete t = true) : ClosesAgain closing? t := by
  obtain ⟨x, y, rfl, hend⟩ := isComplete_iff_exists.mp h
  refine ⟨x, y, rfl, ?_⟩
  rcases endsHeader_iff.mp hend with ⟨v, rfl⟩ | ⟨b, r, v, hb, hne, hcolon, rfl⟩
  · rfl
  · rw [closing?_eq_some_iff.mpr ⟨b, hb, .inr ⟨r, v, hne, hcolon, rfl, rfl⟩⟩]
    rfl

theorem isComplete_of_collectFrom {joined : Option Text} {used : Nat} {depth budget : Int}
    {lines : List Text} {c : CollectedHeader} (h : collectFrom joined used depth budget lines = some c) :
    isComplete c.text = true := by
  obtain ⟨n, -, -, hstop, -, rfl⟩ := collectFrom_eq_some_iff.mp h
  exact hstop.2

/-- All that a parsed text says: an opening, a parenthesis that ends the header, and no such parenthesis
behind it. -/
theorem parse?_eq_some_iff {t : Text} {h : Header} : parse? t = some h ↔
    ∃ (o : Opening) (x y : Text), normalizeBlanks t = o.text ++ (x ++ ')' :: y) ∧
      closing? y = some h.result ∧ ¬ ClosesAgain closing? y ∧ h.isAsync = o.isAsync ∧ h.name = o.name ∧
      h.parameters = trim x := by
  constructor
  · intro hparse
    unfold parse? at hparse
    split at hparse
    · cases hparse
    · rename_i isAsync name r hopening
      obtain ⟨o, rfl, rfl, ho⟩ := Opening.exists_of_opening? hopening
      rw [splitClosing?_eq_cutAtLast] at hparse
      split at hparse
      · cases hparse
      · rename_i x result hcut
        obtain ⟨y, rfl, hy, honce⟩ := cutAtLast_eq_some_iff.mp hcut
        obtain rfl := Option.some.inj hparse
        exact ⟨o, x, y, ho, hy, honce, rfl, rfl, rfl⟩
  · rintro ⟨o, x, y, ht, hy, honce, hasync, hname, hparameters⟩
    have hcut : cutAtLast closing? (x ++ ')' :: y) = some (x, h.result) :=
      cutAtLast_eq_some_iff.mpr ⟨y, rfl, hy, honce⟩
    rw [parse?, ht, Opening.opening?_text_append]
    simp only [splitClosing?_eq_cutAtLast, hcut, ← hasync, ← hname, ← hparameters]

theorem exists_parse?_of_collect? {maxLines : Int} {line : Text} {rest : List Text} {c : CollectedHeader}
    (h : collect? maxLines (line :: rest) = some c) : ∃ hd, parse? c.text = some hd := by
  obtain ⟨o, r, u, -, hu⟩ := exists_opening_of_collect? h
  have hcomplete : isComplete c.text = true := by
    rw [collect?] at h
    split at h
    · exact isComplete_of_collectFrom h
    · cases h
  -- the parenthesis that completes the header stands behind the opening, which has none
  obtain ⟨x, y, hxy, hy⟩ := closesAgain_of_isComplete hcomplete
  rw [hu] at hxy
  obtain ⟨z, -, hz⟩ := exists_append_of_not_mem o.closing_not_mem_text hxy
  have hagain := (closesAgain_collapsed u).mpr ⟨z, y, hz, hy⟩
  cases hcut : cutAtLast closing? (trimRight (collapseFrom false u)) with
  | none => exact absurd hagain (cutAtLast_eq_none_iff.mp hcut)
  | some cut =>
    obtain ⟨parameters, result⟩ := cut
    obtain ⟨rest, hrest, hclosing, honce⟩ := cutAtLast_eq_some_iff.mp hcut
    refine ⟨⟨o.isAsync, o.name, trim parameters, result⟩, parse?_eq_some_iff.mpr ?_⟩
    refine ⟨o.collapsed, parameters, rest, ?_, hclosing, honce, rfl, rfl, rfl⟩
    rw [hu, Opening.normalizeBlanks_text_append, hrest]

/-- Whatever is collected is parsed, so it is read. The name stands behind `def` on the line where the collection
starts, and the header is asynchronous exactly if that line, its leading blanks ignored, starts with `async`. -/
theorem read?_of_collectAt? {maxLines index : Int} {lines : List Text} {c : CollectedHeader}
    (h : collectAt? maxLines lines index = some c) :
    ∃ (line : Text) (o : Opening) (r : Text) (hd : Header), 0 ≤ index ∧ lines[index.toNat]? = some line ∧
      trimLeft line = o.text ++ r ∧ parse? c.text = some hd ∧ hd.name = o.name ∧
      (hd.isAsync = true ↔ ("async" : Text) <+: trimLeft line) ∧
      read? maxLines (lines.drop index.toNat) = some (hd, c.lineCount) := by
  unfold collectAt? at h
  split at h
  · cases h
  · rename_i hindex
    cases hlines : lines.drop index.toNat with
    | nil =>
      rw [hlines] at h
      cases h
    | cons line rest =>
      rw [hlines] at h
      obtain ⟨hd, hparse⟩ := exists_parse?_of_collect? h
      have hread : read? maxLines (line :: rest) = some (hd, c.lineCount) := by
        simp only [read?, h, hparse, Option.map_some]
      obtain ⟨o, r, ho, hasync, hname⟩ := exists_opening_of_read? hread
      have hline : lines[index.toNat]? = some line := by
        rw [← List.head?_drop, hlines, List.head?_cons]
      refine ⟨line, o, r, hd, by omega, hline, ho, hparse, hname, ?_, hread⟩
      rw [ho, hasync]
      exact o.isAsync_iff r

theorem read?_of_collectAt?_across_comment :
    let lines : List Text := ["x = 1", "  async def  run (a=(1,", "  # ) stray (", "\tb) ) -> int : pass"]
    let c : CollectedHeader := ⟨"async def  run (a=(1, # ) stray ( b) ) -> int : pass", 3⟩
    collectAt? 3 lines 1 = some c ∧
      ∃ hd, parse? c.text = some hd ∧ hd.isAsync = true ∧ read? 3 (lines.drop 1) = some (hd, 3) := by
  intro lines c
  have hcollect : collectAt? 3 lines 1 = some c := by decide +kernel
  obtain ⟨line, o, r, hd, -, hline, -, hparse, -, hasync, hread⟩ := read?_of_collectAt? hcollect
  obtain rfl : ("  async def  run (a=(1," : Text) = line := Option.some.inj hline
  exact ⟨hcollect, hd, hparse, hasync.mpr (by decide +kernel), hread⟩

/-! The text that is made of the parts. -/

def tail (h : Header) : Text := if h.result.isEmpty then [':'] else (" -> " : Text) ++ (h.result ++ [':'])

theorem tail_of_nil {h : Header} (hnil : h.result = []) : h.tail = [':'] := by
  rw [tail, hnil]
  rfl

theorem tail_of_ne_nil {h : Header} (hne : h.result ≠ []) :
    h.tail = (" -> " : Text) ++ (h.result ++ [':']) := by
  rw [tail, if_neg (by simpa using hne)]

theorem trimRight_tail (h : Header) : trimRight h.tail = h.tail := by
  obtain ⟨u, hu⟩ : ∃ u, h.tail = u ++ [':'] := by
    unfold tail
    split
    · exact ⟨[], rfl⟩
    · exact ⟨_, (List.append_assoc _ _ _).symm⟩
  rw [hu, trimRight_append_cons (by decide)]
  rfl

theorem format_append_colon (h : Header) (hname : isIdentifier h.name = true) :
    h.format ++ [':'] = (Opening.plain h.isAsync h.name hname).text ++ (h.parameters ++ ')' :: h.tail) := by
  rw [Opening.text_plain_append]
  unfold format tail
  generalize (if h.isAsync then ("async def " : Text) else "def ") = keyword
  generalize (" -> " : Text) = arrow
  cases h.result <;> simp

/-- The parts of a header as a parse leaves them. -/
structure Canonical (h : Header) : Prop where
  isIdentifier_name : isIdentifier h.name = true
  singleSpaced_parameters : SingleSpaced h.parameters
  trim_parameters : trim h.parameters = h.parameters
  singleSpaced_result : SingleSpaced h.result
  trim_result : trim h.result = h.result
  colon_not_mem_result : ':' ∉ h.result
  closesOnce : ¬ ClosesAgain closing? h.tail

theorem isSome_closing?_append_blanks {z b v : Text} (hz : ':' ∉ z) (hb : ∀ c ∈ b, isBlank c = true)
    (h : (closing? (z ++ [':'])).isSome = true) : (closing? (z ++ (b ++ ':' :: v))).isSome = true := by
  obtain ⟨r, hr⟩ := Option.isSome_iff_exists.mp h
  obtain ⟨b', hb', ⟨v', hv', -⟩ | ⟨w, v', hne, hcolon, hv', -⟩⟩ := closing?_eq_some_iff.mp hr
  · obtain ⟨rfl, -⟩ := (List.append_cons_inj_of_notMem hz (by simp)).mp hv'
    have hblanks : ∀ c ∈ z ++ b, isBlank c = true := by
      intro c hc
      exact (List.mem_append.mp hc).elim (hb' c) (hb c)
    rw [closing?_eq_some_iff.mpr ⟨z ++ b, hblanks, Or.inl ⟨v, by simp, rfl⟩⟩]
    rfl
  · have hcut : z ++ ':' :: [] = (b' ++ '-' :: '>' :: w) ++ ':' :: v' := by simpa using hv'
    obtain ⟨rfl, -⟩ := (List.append_cons_inj_of_notMem hz (by simp)).mp hcut
    have hcolon' : ':' ∉ w ++ b := by
      rw [List.mem_append, not_or]
      exact ⟨hcolon, fun hmem => absurd (hb _ hmem) (by decide)⟩
    rw [closing?_eq_some_iff.mpr
      ⟨b', hb', Or.inr ⟨w ++ b, v, by simp [hne], hcolon', by simp, rfl⟩⟩]
    rfl

theorem exists_of_closesAgain_tail {h : Header} (hagain : ClosesAgain closing? h.tail) :
    ∃ x z, h.result = x ++ ')' :: z ∧ (closing? (z ++ [':'])).isSome = true := by
  obtain ⟨x, y, hxy, hy⟩ := hagain
  by_cases hnil : h.result = []
  · have hmem : ')' ∈ h.tail := by simp [hxy]
    rw [tail_of_nil hnil] at hmem
    exact absurd hmem (by decide)
  · rw [tail_of_ne_nil hnil] at hxy
    obtain ⟨u, -, hu⟩ := exists_append_of_not_mem (by decide) hxy
    rcases List.eq_nil_or_concat y with rfl | ⟨z, d, hlast⟩
    · cases hy
    · -- the rest behind the parenthesis ends with the colon of the header
      rw [List.concat_eq_append] at hlast
      rw [hlast, ← List.cons_append, ← List.append_assoc] at hu
      obtain ⟨hresult, hd⟩ := List.append_inj' hu rfl
      obtain rfl : ':' = d := by simpa using hd
      rw [hlast] at hy
      exact ⟨u, z, hresult, hy⟩

/-- A parenthesis of the result that could end the header could end it also where the result was read. -/
theorem not_closesAgain_tail {h : Header} {y : Text} (hy : closing? y = some h.result)
    (honce : ¬ ClosesAgain closing? y) : ¬ ClosesAgain closing? h.tail := by
  intro hagain
  obtain ⟨x, z, hresult, hz⟩ := exists_of_closesAgain_tail hagain
  obtain ⟨b, -, ⟨v, -, hr⟩ | ⟨w, v, -, hcolon, rfl, hr⟩⟩ := closing?_eq_some_iff.mp hy
  · rw [hr] at hresult
    simp at hresult
  · obtain ⟨b₁, -, hleft⟩ := exists_blanks_trimLeft w
    obtain ⟨b₂, hb₂, hright⟩ := exists_trimRight_blanks (trimLeft w)
    rw [← trim, ← hr, hresult] at hright
    rw [hright] at hleft
    have hcolon' : ':' ∉ z := by
      intro hmem
      refine hcolon ?_
      rw [hleft]
      simp [hmem]
    refine honce ⟨b ++ '-' :: '>' :: (b₁ ++ x), z ++ (b₂ ++ ':' :: v), ?_,
      isSome_closing?_append_blanks hcolon' hb₂ hz⟩
    rw [hleft]
    simp

theorem canonical_of_parse? {t : Text} {h : Header} (hparse : parse? t = some h) : h.Canonical := by
  obtain ⟨o, x, y, ht, hy, honce, -, hname, hparameters⟩ := parse?_eq_some_iff.mp hparse
  have hspaced := singleSpaced_normalizeBlanks t
  rw [ht] at hspaced
  have hx : x <:+: o.text ++ (x ++ ')' :: y) := ⟨o.text, ')' :: y, by simp⟩
  have hy' : y <:+: o.text ++ (x ++ ')' :: y) := ⟨o.text ++ x ++ [')'], [], by simp⟩
  have hresult : SingleSpaced h.result ∧ trim h.result = h.result ∧ ':' ∉ h.result := by
    obtain ⟨b, -, ⟨v, -, hr⟩ | ⟨w, v, -, hcolon, rfl, hr⟩⟩ := closing?_eq_some_iff.mp hy
    · rw [hr]
      exact ⟨⟨nofun, by simp⟩, rfl, by simp⟩
    · have hw : w <:+: b ++ '-' :: '>' :: (w ++ ':' :: v) := ⟨b ++ ['-', '>'], ':' :: v, by simp⟩
      rw [hr]
      exact ⟨hspaced.mono (((infix_trim w).trans hw).trans hy'), trim_trim w,
        fun hmem => hcolon ((infix_trim w).subset hmem)⟩
  refine ⟨hname ▸ o.isIdentifier_name, ?_, ?_, hresult.1, hresult.2.1, hresult.2.2,
    not_closesAgain_tail hy honce⟩
  · rw [hparameters]
    exact hspaced.mono ((infix_trim x).trans hx)
  · rw [hparameters, trim_trim]

namespace Canonical

variable {h : Header}

theorem closing?_tail (hc : h.Canonical) : closing? h.tail = some h.result := by
  by_cases hnil : h.result = []
  · rw [tail_of_nil hnil, hnil]
    rfl
  · have hspace : trim (' ' :: h.result) = h.result := by
      rw [← List.singleton_append, trim_blanks_append isBlank_of_mem_space, hc.trim_result]
    rw [tail_of_ne_nil hnil]
    exact closing?_eq_some_iff.mpr ⟨[' '], isBlank_of_mem_space, Or.inr
      ⟨' ' :: h.result, [], by simp, by simp [hc.colon_not_mem_result], by simp, hspace.symm⟩⟩

theorem collapseFrom_tail (hc : h.Canonical) : collapseFrom false h.tail = h.tail := by
  by_cases hnil : h.result = []
  · rw [tail_of_nil hnil]
    rfl
  · obtain ⟨c, -, hfirst, hblank, -, -⟩ := exists_ends_of_trim_eq hnil hc.trim_result
    obtain ⟨r, hr⟩ := List.head?_eq_some_iff.mp hfirst
    have hresult : collapseFrom false (h.result ++ [':']) = h.result ++ [':'] := by
      rw [collapseFrom_append_cons (by decide), hc.singleSpaced_result.collapseFrom_eq]
      rfl
    rw [tail_of_ne_nil hnil]
    rw [hr, List.cons_append] at hresult ⊢
    change (" -> " : Text) ++ collapseFrom true (c :: (r ++ [':'])) = _
    rw [collapseFrom_cons hblank, ← collapseFrom_cons hblank false, hresult]

theorem parse?_format (hc : h.Canonical) : parse? (h.format ++ [':']) = some h := by
  refine parse?_eq_some_iff.mpr ⟨.plain h.isAsync h.name hc.isIdentifier_name, h.parameters, h.tail, ?_,
    hc.closing?_tail, hc.closesOnce, rfl, rfl, hc.trim_parameters.symm⟩
  rw [format_append_colon h hc.isIdentifier_name, Opening.normalizeBlanks_text_append,
    Opening.collapsed_plain, collapseFrom_append_cons (by decide), trimRight_append_cons (by decide),
    hc.singleSpaced_parameters.collapseFrom_eq, hc.collapseFrom_tail, trimRight_tail]

end Canonical

/-- A header that was parsed is parsed again from the text that is made of its parts. -/
theorem parse?_format_of_parse? {t : Text} {h : Header} (hparse : parse? t = some h) :
    parse? (h.format ++ [':']) = some h :=
  (canonical_of_parse? hparse).parse?_format

theorem parse?_format_of_parse?_second_arrow :
    let h : Header := ⟨true, "f", "x: (int)) -> g: h(y", "(z) | w"⟩
    parse? ("async  def f ( x: (int)) -> g: h(y\t) ->  (z) | w : (v) -> (q" : Text) = some h ∧
      h.format = ("async def f(x: (int)) -> g: h(y) -> (z) | w" : Text) ∧
      parse? (h.format ++ [':']) = some h := by
  intro h
  have hparse : parse? ("async  def f ( x: (int)) -> g: h(y\t) ->  (z) | w : (v) -> (q" : Text) = some h := by
    decide +kernel
  exact ⟨hparse, by decide +kernel, parse?_format_of_parse? hparse⟩

end Header
end EditorInsight
