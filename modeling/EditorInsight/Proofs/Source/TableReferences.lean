import EditorInsight.Proofs.Source.CursorWords

/-!
# The table references of a line

A table reference is told by what stands at a place of the line: `database`, and in square brackets a quoted
identifier. A dot before it belongs to it. Two references never share a character, since the square bracket of the
second would have to stand in the first. So a scan from left to right, which goes on behind each reference that it
finds, passes over none.
-/

namespace EditorInsight

open Text

namespace Cursor

structure TableReference (line : Text) where
  before : Text
  opening : Char
  name : Text
  closing : Char
  after : Text
  eq_append : line = before ++ ("database" ++ '[' :: opening :: (name ++ closing :: ']' :: after))
  isQuote_opening : isQuote opening = true
  isQuote_closing : isQuote closing = true
  isIdentifier_name : isIdentifier name = true

theorem isIdentPart_of_isQuote {q : Char} (h : isQuote q = true) : isIdentPart q = false := by
  simp only [isQuote, Bool.or_eq_true, beq_iff_eq] at h
  rcases h with rfl | rfl <;> decide

namespace TableReference

variable {line : Text}

def start (r : TableReference line) : Nat :=
  if r.before.getLast? = some '.' then r.before.length - 1 else r.before.length

def stop (r : TableReference line) : Nat := line.length - r.after.length

theorem stop_eq (r : TableReference line) : r.stop = r.before.length + (r.name.length + 12) := by
  have hlength := congrArg List.length r.eq_append
  simp only [List.length_append, List.length_cons] at hlength
  have hword : ("database" : Text).length = 8 := rfl
  rw [hword] at hlength
  rw [stop]
  omega

theorem stop_pos (r : TableReference line) : 0 < r.stop := by
  rw [r.stop_eq]
  omega

theorem exists_append_after (r : TableReference line) : ∃ u, line = u ++ r.after ∧ u.length = r.stop := by
  refine ⟨r.before ++ ("database" ++ '[' :: r.opening :: (r.name ++ [r.closing, ']'])), ?_, ?_⟩
  · exact r.eq_append.trans (by simp)
  · rw [r.stop_eq]
    simp

theorem start_le (r : TableReference line) : r.start ≤ r.before.length := by
  unfold start
  split
  · exact Nat.sub_le _ _
  · exact Nat.le_refl _

theorem not_mem_subscript (r : TableReference line) : '[' ∉ r.opening :: (r.name ++ [r.closing, ']']) := by
  have hquote {q : Char} (hq : isQuote q = true) : '[' ≠ q := by
    rintro rfl
    cases hq
  have hname : '[' ∉ r.name := not_mem_identifier r.isIdentifier_name (by decide)
  simp [hname, hquote r.isQuote_opening, hquote r.isQuote_closing]

/-- A reference that stands further right stands behind the whole of the first. -/
theorem exists_before_eq {r s : TableReference line} (h : r.before.length < s.before.length) :
    ∃ z, s.before = r.before ++ ("database" ++ '[' :: r.opening :: (r.name ++ r.closing :: ']' :: z)) := by
  have hword : '[' ∉ ("database" : Text) := by decide
  have hword' : ']' ∉ ("database" : Text) := by decide
  have hline := r.eq_append.symm.trans s.eq_append
  generalize ("database" : Text) = word at hline hword hword' ⊢
  rcases List.append_eq_append_iff.mp hline with ⟨x, hbefore, hrest⟩ | ⟨x, hbefore, -⟩
  · -- the bracket of the second reference is not the one of the first, and so it stands behind the first
    rw [← List.append_assoc] at hrest
    obtain ⟨z, hz, hsecond⟩ := exists_append_of_not_mem hword hrest
    cases z with
    | nil =>
      have hlength := congrArg List.length hz
      rw [List.append_nil, List.length_append] at hlength
      rw [hbefore, List.length_append] at h
      omega
    | cons c z =>
      obtain ⟨rfl, hsubscript⟩ := List.cons.inj hsecond
      have hbody : r.opening :: (r.name ++ r.closing :: ']' :: r.after) =
          r.opening :: (r.name ++ [r.closing, ']']) ++ r.after := by simp
      rw [hbody] at hsubscript
      obtain ⟨v, rfl, -⟩ := exists_append_of_not_mem r.not_mem_subscript hsubscript
      -- the word of the second has no closing bracket
      have hclosing : x ++ word = (word ++ '[' :: r.opening :: (r.name ++ [r.closing])) ++ ']' :: v := by
        simp [hz]
      obtain ⟨y, rfl, -⟩ := exists_append_of_not_mem_right hword' hclosing
      exact ⟨y, by simp [hbefore]⟩
  · rw [hbefore, List.length_append] at h
    omega

theorem stop_le_start {r s : TableReference line} (h : r.before.length < s.before.length) : r.stop ≤ s.start := by
  obtain ⟨z, hz⟩ := exists_before_eq h
  have hlength := congrArg List.length hz
  simp only [List.length_append, List.length_cons, show ("database" : Text).length = 8 from rfl] at hlength
  rw [r.stop_eq, start]
  split
  · rename_i hdot
    cases z with
    | nil =>
      have hlast : s.before =
          r.before ++ ("database" ++ '[' :: r.opening :: (r.name ++ [r.closing])) ++ [']'] := by simp [hz]
      rw [hlast, List.getLast?_concat] at hdot
      cases hdot
    | cons c z =>
      rw [List.length_cons] at hlength
      omega
  · omega

theorem eq_of_length_before {r s : TableReference line} (h : r.before.length = s.before.length) : r = s := by
  obtain ⟨hbefore, hrest⟩ := List.append_inj (r.eq_append.symm.trans s.eq_append) h
  have hbody := List.append_cancel_left hrest
  obtain ⟨-, hbody⟩ := List.cons.inj hbody
  obtain ⟨hopening, hbody⟩ := List.cons.inj hbody
  have hquote {q : Char} (hq : isQuote q = true) (t : Text) : ∀ c ∈ (q :: t).head?, isIdentPart c = false := by
    rintro c ⟨⟩
    exact isIdentPart_of_isQuote hq
  have hread := identifier?_append r.isIdentifier_name (hquote r.isQuote_closing (']' :: r.after))
  rw [hbody, identifier?_append s.isIdentifier_name (hquote s.isQuote_closing (']' :: s.after))] at hread
  obtain ⟨hname, hend⟩ := Prod.mk.inj (Option.some.inj hread)
  cases r
  cases s
  simp_all

theorem eq_or_apart (r s : TableReference line) : r = s ∨ r.stop ≤ s.start ∨ s.stop ≤ r.start := by
  rcases Nat.lt_trichotomy r.before.length s.before.length with h | h | h
  · exact .inr (.inl (stop_le_start h))
  · exact .inl (eq_of_length_before h)
  · exact .inr (.inr (stop_le_start h))

def Covers (r : TableReference line) (column : Int) : Prop := r.start ≤ column ∧ column < r.stop

theorem eq_of_covers {r s : TableReference line} {column : Int} (hr : r.Covers column) (hs : s.Covers column) :
    r = s := by
  obtain ⟨hrstart, hrstop⟩ := hr
  obtain ⟨hsstart, hsstop⟩ := hs
  rcases eq_or_apart r s with h | h | h
  · exact h
  · omega
  · omega

theorem start_eq_zero_iff {r : TableReference line} : r.start = 0 ↔ r.before = [] ∨ r.before = ['.'] := by
  unfold start
  constructor
  · intro h
    split at h
    · rename_i hdot
      obtain ⟨u, hu⟩ := List.getLast?_eq_some_iff.mp hdot
      have hlength := congrArg List.length hu
      rw [List.length_append, List.length_singleton] at hlength
      obtain rfl : u = [] := List.length_eq_zero_iff.mp (by omega)
      exact .inr hu
    · exact .inl (List.length_eq_zero_iff.mp h)
  · rintro (h | h) <;> simp [h]

/-! References in the rest of a line. -/

variable {u t : Text}

theorem append_eq_append (u : Text) (r : TableReference t) : u ++ t =
    u ++ r.before ++ ("database" ++ '[' :: r.opening :: (r.name ++ r.closing :: ']' :: r.after)) := by
  rw [List.append_assoc, ← r.eq_append]

def prepend (u : Text) (r : TableReference t) : TableReference (u ++ t) :=
  ⟨u ++ r.before, r.opening, r.name, r.closing, r.after, r.append_eq_append u, r.isQuote_opening,
    r.isQuote_closing, r.isIdentifier_name⟩

theorem stop_prepend (u : Text) (r : TableReference t) : (r.prepend u).stop = u.length + r.stop := by
  rw [stop_eq, stop_eq]
  simp only [prepend, List.length_append]
  omega

theorem before_prepend (u : Text) (r : TableReference t) : (r.prepend u).before = u ++ r.before := rfl

theorem start_prepend (u : Text) (r : TableReference t) :
    (r.prepend u).start = u.length + r.start ∨ (r.prepend u).start < u.length := by
  unfold start
  rw [before_prepend, List.getLast?_append, List.length_append]
  cases hlast : r.before.getLast? with
  | none =>
    rw [List.getLast?_eq_none_iff] at hlast
    simp only [Option.none_or, hlast, List.length_nil, reduceCtorEq, if_false]
    split
    · rename_i hdot
      obtain ⟨v, rfl⟩ := List.getLast?_eq_some_iff.mp hdot
      exact .inr (by simp)
    · exact .inl rfl
  | some c =>
    obtain ⟨v, hv⟩ := List.getLast?_eq_some_iff.mp hlast
    have hlength := congrArg List.length hv
    rw [List.length_append, List.length_singleton] at hlength
    rw [Option.some_or]
    split
    · exact .inl (by omega)
    · exact .inl rfl

theorem exists_prepend {r : TableReference (u ++ t)} (h : u.length ≤ r.before.length) :
    ∃ s : TableReference t, r = s.prepend u := by
  obtain ⟨z, hz⟩ : u <+: r.before :=
    List.prefix_of_prefix_length_le (List.prefix_append u t) ⟨_, r.eq_append.symm⟩ h
  have hrest := r.eq_append
  rw [← hz, List.append_assoc] at hrest
  refine ⟨⟨z, r.opening, r.name, r.closing, r.after, List.append_cancel_left hrest, r.isQuote_opening,
    r.isQuote_closing, r.isIdentifier_name⟩, eq_of_length_before ?_⟩
  rw [before_prepend, hz]

/-- If all references that cover the column begin in the second text, they are those of the second text. -/
theorem exists_covers_append_iff {column : Int} (name : Text)
    (h : ∀ r : TableReference (u ++ t), r.Covers column → u.length ≤ r.start) :
    (∃ r : TableReference (u ++ t), r.name = name ∧ r.Covers column) ↔
      ∃ r : TableReference t, r.name = name ∧ r.Covers (column - u.length) := by
  constructor
  · rintro ⟨r, rfl, hr⟩
    have hstart := h r hr
    obtain ⟨s, rfl⟩ := exists_prepend (Nat.le_trans hstart r.start_le)
    obtain ⟨hlow, hhigh⟩ := hr
    have hsame := (s.start_prepend u).resolve_right (by omega)
    rw [hsame] at hlow
    rw [s.stop_prepend] at hhigh
    exact ⟨s, rfl, by omega, by omega⟩
  · rintro ⟨s, rfl, hlow, hhigh⟩
    have hstart := s.start_prepend u
    have hstop := s.stop_prepend u
    exact ⟨s.prepend u, rfl, by omega, by omega⟩

end TableReference

/-! Reading a reference at the start of a text. -/

theorem tableReference?_eq_some_iff {t name : Text} {n : Nat} : tableReference? t = some (name, n) ↔
    ∃ r : TableReference t, r.before = [] ∧ r.name = name ∧ r.stop = n := by
  constructor
  · intro h
    unfold tableReference? at h
    split at h
    · rename_i q rest hafter
      split at h
      · rename_i hopening
        split at h
        · rename_i name' q' after hread
          split at h
          · rename_i hclosing
            obtain ⟨rfl, rfl⟩ := Prod.mk.inj (Option.some.inj h)
            obtain ⟨rfl, hname, -⟩ := identifier?_eq_some hread
            have ht : t = "database[" ++ q :: (name' ++ q' :: ']' :: after) := after?_eq_some_iff.mp hafter
            let r : TableReference t := ⟨[], q, name', q', after, ht, hopening, hclosing, hname⟩
            exact ⟨r, rfl, rfl, by rw [r.stop_eq]; exact Nat.zero_add _⟩
          · cases h
        · cases h
      · cases h
    · cases h
  · rintro ⟨r, hbefore, rfl, rfl⟩
    have hline := r.eq_append
    rw [hbefore, List.nil_append] at hline
    have hafter : after? "database[" t = some (r.opening :: (r.name ++ r.closing :: ']' :: r.after)) :=
      after?_eq_some_iff.mpr hline
    have hread := identifier?_append r.isIdentifier_name (r := r.closing :: ']' :: r.after)
      (by rintro c ⟨⟩; exact isIdentPart_of_isQuote r.isQuote_closing)
    rw [tableReference?, hafter]
    simp only [r.isQuote_opening, hread, r.isQuote_closing, if_true, r.stop_eq, hbefore, List.length_nil, Nat.zero_add]

theorem dottedTableReference?_eq_some_iff {t name : Text} {n : Nat} : dottedTableReference? t = some (name, n) ↔
    ∃ r : TableReference t, r.start = 0 ∧ r.name = name ∧ r.stop = n := by
  simp only [TableReference.start_eq_zero_iff]
  unfold dottedTableReference?
  split
  · rename_i rest
    rw [Option.map_eq_some_iff]
    constructor
    · rintro ⟨⟨name', m⟩, hread, hsame⟩
      obtain ⟨rfl, rfl⟩ := Prod.mk.inj hsame
      obtain ⟨r, hbefore, rfl, rfl⟩ := tableReference?_eq_some_iff.mp hread
      refine ⟨r.prepend ['.'], .inr ?_, rfl, ?_⟩
      · rw [r.before_prepend, hbefore, List.append_nil]
      · exact (r.stop_prepend ['.']).trans (Nat.add_comm _ _)
    · rintro ⟨r, hbefore, rfl, rfl⟩
      rcases hbefore with hbefore | hbefore
      · have hline := r.eq_append
        rw [hbefore] at hline
        cases hline
      · obtain ⟨s, rfl⟩ := TableReference.exists_prepend (u := ['.']) (r := r) (by simp [hbefore])
        refine ⟨(s.name, s.stop), tableReference?_eq_some_iff.mpr ⟨s, ?_, rfl, rfl⟩, ?_⟩
        · rw [s.before_prepend, List.singleton_append] at hbefore
          exact (List.cons.inj hbefore).2
        · rw [s.stop_prepend, Nat.add_comm]
          rfl
  · rename_i hdot
    rw [tableReference?_eq_some_iff]
    have hbefore (r : TableReference t) : r.before = [] ↔ r.before = [] ∨ r.before = ['.'] := by
      refine ⟨.inl, fun h => h.resolve_right fun h => ?_⟩
      have hline := r.eq_append
      rw [h] at hline
      exact hdot _ hline
    simp only [← hbefore]

/-! The scan. -/

theorem tableFrom?_append (column : Int) (index : Nat) (u t : Text) :
    tableFrom? column index u.length (u ++ t) = tableFrom? column (index + u.length) 0 t := by
  induction u generalizing index with
  | nil => rfl
  | cons c u ih =>
    rw [List.length_cons, List.cons_append, tableFrom?, ih]
    congr 1
    omega

theorem tableFrom?_of_some (column : Int) (index : Nat) {u t name : Text} (hne : u ≠ [])
    (h : dottedTableReference? (u ++ t) = some (name, u.length)) :
    tableFrom? column index 0 (u ++ t) =
      if index ≤ column ∧ column < (index + u.length : Nat) then some name
      else tableFrom? column (index + u.length) 0 t := by
  cases u with
  | nil => exact absurd rfl hne
  | cons c u =>
    rw [List.cons_append] at h ⊢
    rw [tableFrom?, h]
    simp only [Bool.and_eq_true, decide_eq_true_eq, List.length_cons, Nat.add_sub_cancel, tableFrom?_append]
    rw [Nat.add_assoc, Nat.add_comm 1]

/-- The scan finds the reference that covers the column, whatever it has passed over before. -/
theorem tableFrom?_eq_some_iff (column : Int) (index : Nat) (t name : Text) :
    tableFrom? column index 0 t = some name ↔
      ∃ r : TableReference t, r.name = name ∧ r.Covers (column - index) := by
  induction hlength : t.length using Nat.strong_induction_on generalizing index t with
  | _ n ih =>
    subst hlength
    cases hread : dottedTableReference? t with
    | some found =>
      obtain ⟨name', stop⟩ := found
      obtain ⟨r, hstart, rfl, rfl⟩ := dottedTableReference?_eq_some_iff.mp hread
      obtain ⟨u, hline, hlength⟩ := r.exists_append_after
      generalize r.after = after at hline
      subst hline
      have hpos := r.stop_pos
      have hne : u ≠ [] := List.length_pos_iff.mp (by omega)
      rw [← hlength] at hread
      rw [tableFrom?_of_some column index hne hread]
      split
      · rename_i hcovers
        have hr : r.Covers (column - index) := ⟨by omega, by omega⟩
        constructor
        · intro h
          exact ⟨r, Option.some.inj h, hr⟩
        · rintro ⟨s, rfl, hs⟩
          rw [TableReference.eq_of_covers hs hr]
      · rename_i hcovers
        -- a reference that covers the column is another one, and stands behind
        have hbehind (s : TableReference (u ++ after)) (hs : s.Covers (column - index)) : u.length ≤ s.start := by
          obtain ⟨hlow, hhigh⟩ := hs
          rcases TableReference.eq_or_apart r s with rfl | h | h
          · omega
          · omega
          · omega
        rw [TableReference.exists_covers_append_iff name hbehind, ih after.length (by simp; omega) _ _ rfl]
        simp only [Int.natCast_add, Int.sub_sub]
    | none =>
      cases t with
      | nil =>
        constructor
        · intro h
          cases h
        · rintro ⟨r, -⟩
          have hlength := congrArg List.length r.eq_append
          simp at hlength
      | cons c t =>
        have hbehind (s : TableReference ([c] ++ t)) (hs : s.Covers (column - index)) : [c].length ≤ s.start := by
          refine Nat.pos_of_ne_zero fun hstart => ?_
          have hfound := dottedTableReference?_eq_some_iff.mpr ⟨s, hstart, rfl, rfl⟩
          cases hread.symm.trans hfound
        have hrest := TableReference.exists_covers_append_iff name hbehind
        rw [List.singleton_append] at hrest
        rw [tableFrom?, hread, hrest, ih t.length (by simp) _ _ rfl]
        simp only [Int.natCast_add, Int.sub_sub, List.length_singleton]

/-- A table is found at a column exactly if a reference that names it covers the column, and no two references
cover one column. -/
theorem tableAt?_covering_reference (line : Text) (column : Int) :
    (∀ name, tableAt? line column = some name ↔
      ∃ r : TableReference line, r.name = name ∧ r.start ≤ column ∧ column < r.stop) ∧
    ∀ r s : TableReference line, r.start ≤ column → column < r.stop → s.start ≤ column → column < s.stop →
      r = s := by
  refine ⟨fun name => ?_, fun r s hr hr' hs hs' => TableReference.eq_of_covers ⟨hr, hr'⟩ ⟨hs, hs'⟩⟩
  have hscan := tableFrom?_eq_some_iff column 0 line name
  rw [Int.natCast_zero, Int.sub_zero] at hscan
  exact hscan

theorem tableAt?_covering_reference_dotted :
    let line : Text := "adatabase['database']..database[\"T_1']"
    ∃ r : TableReference line, r.name = "T_1" ∧ r.start = 22 ∧ r.stop = 38 ∧
      tableAt? line 22 = some ("T_1" : Text) ∧ ∀ s : TableReference line, s.start ≤ 22 → 22 < s.stop → s = r := by
  intro line
  obtain ⟨r, hname, hstart, hstop⟩ : ∃ r : TableReference line, r.name = "T_1" ∧ r.start = 22 ∧ r.stop = 38 :=
    ⟨⟨"adatabase['database']..", '"', "T_1", '\'', [], rfl, by decide, by decide, by decide⟩, rfl, by decide, by decide⟩
  clear_value line
  obtain ⟨hfound, hunique⟩ := tableAt?_covering_reference line 22
  refine ⟨r, hname, hstart, hstop, (hfound "T_1").mpr ⟨r, hname, by omega, by omega⟩, ?_⟩
  intro s hs hs'
  exact hunique s r (by omega) (by omega) (by omega) (by omega)

end Cursor
end EditorInsight
