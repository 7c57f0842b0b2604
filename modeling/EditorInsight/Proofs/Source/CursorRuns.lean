import EditorInsight.Proofs.Source.CursorPlaces

/-!
# The run that the cursor touches

A run of a line is a stretch of expression characters with none before it and none behind it; a run may be empty.
Every column, those outside the line counted as the nearer end, touches one run and no other, since every stretch of
expression characters that touches the column lies in it. The expression at the column is this run, if it has a letter
or an underscore.
-/

namespace EditorInsight.Cursor

open Text

def IsNameLetter (c : Char) : Prop := ('A' ≤ c ∧ c ≤ 'Z') ∨ ('a' ≤ c ∧ c ≤ 'z') ∨ c = '_'

def IsRunChar (c : Char) : Prop := IsNameLetter c ∨ ('0' ≤ c ∧ c ≤ '9') ∨ c = '.'

theorem isIdentStart_iff {c : Char} : isIdentStart c = true ↔ IsNameLetter c := by
  delta isIdentStart IsNameLetter Char.isAlpha Char.isUpper Char.isLower
  simp only [Bool.or_eq_true, Bool.and_eq_true, decide_eq_true_eq, beq_iff_eq, ge_iff_le, Char.le_def, or_assoc]

theorem isExpressionChar_iff {c : Char} : isExpressionChar c = true ↔ IsRunChar c := by
  have hpart : isIdentPart c = true ↔ isIdentStart c = true ∨ c.isDigit = true := by
    simp only [isIdentPart, isIdentStart, Char.isAlphanum, Bool.or_eq_true, or_right_comm]
  have hdigit : c.isDigit = true ↔ '0' ≤ c ∧ c ≤ '9' := by
    delta Char.isDigit
    simp only [Bool.and_eq_true, decide_eq_true_eq, ge_iff_le, Char.le_def]
  rw [isExpressionChar, Bool.or_eq_true, beq_iff_eq, hpart, isIdentStart_iff, hdigit, IsRunChar, or_comm, or_assoc]

instance : DecidablePred IsNameLetter := fun _ => decidable_of_iff _ isIdentStart_iff

instance : DecidablePred IsRunChar := fun _ => decidable_of_iff _ isExpressionChar_iff

theorem isExpressionChar_eq_false_iff {c : Char} : isExpressionChar c = false ↔ ¬ IsRunChar c := by
  rw [← isExpressionChar_iff, Bool.not_eq_true]

/-- A stretch of run characters in the line with no such character on either side. -/
structure Run (line : Text) where
  before : Text
  text : Text
  after : Text
  eq_append : line = before ++ (text ++ after)
  chars : ∀ c ∈ text, IsRunChar c
  alone_left : ∀ c ∈ before.getLast?, ¬ IsRunChar c
  alone_right : ∀ c ∈ after.head?, ¬ IsRunChar c

namespace Run

variable {line : Text}

def start (r : Run line) : Nat := r.before.length

def stop (r : Run line) : Nat := r.before.length + r.text.length

def Touches (r : Run line) (column : Int) : Prop := r.start ≤ column ∧ column ≤ r.stop

instance (r : Run line) (column : Int) : Decidable (r.Touches column) := inferInstanceAs (Decidable (_ ∧ _))

theorem isOn (r : Run line) {column : Int} (h : r.Touches column) : IsOn line column r.text :=
  ⟨r.before, r.after, r.eq_append, fun c hc => isExpressionChar_eq_false_iff.mpr (r.alone_left c hc),
    fun c hc => isExpressionChar_eq_false_iff.mpr (r.alone_right c hc), h.1, h.2⟩

theorem expressionAt?_eq (r : Run line) {column : Int} (h : r.Touches column) :
    expressionAt? line column = if r.text.any isIdentStart then some r.text else none :=
  expressionAt?_eq_of_isOn (fun c hc => isExpressionChar_iff.mpr (r.chars c hc)) (r.isOn h)

/-! One run for each column. -/

theorem not_isRunChar_left {t : Text} (r : Run t) {i : Nat} {c : Char} (hi : i + 1 = r.before.length)
    (hc : t[i]? = some c) : ¬ IsRunChar c := by
  rw [r.eq_append, List.getElem?_append_left (by omega)] at hc
  apply r.alone_left
  rw [List.getLast?_eq_getElem?, ← hi]
  exact hc

theorem not_isRunChar_right {t : Text} (r : Run t) {i : Nat} {c : Char}
    (hi : i = r.before.length + r.text.length) (hc : t[i]? = some c) : ¬ IsRunChar c := by
  rw [r.eq_append, List.getElem?_append_right (by omega), List.getElem?_append_right (by omega),
    show i - r.before.length - r.text.length = 0 by omega] at hc
  apply r.alone_right
  rw [List.head?_eq_getElem?]
  exact hc

/-- Every stretch of run characters that touches the column lies in the run that does. -/
theorem contains {t : Text} (r : Run t) {column : Int} (h : r.Touches column) {before text after : Text}
    (ht : t = before ++ (text ++ after)) (hchars : ∀ c ∈ text, IsRunChar c)
    (hlow : before.length ≤ column) (hhigh : column ≤ (before.length + text.length : Nat)) :
    r.start ≤ before.length ∧ before.length + text.length ≤ r.stop := by
  obtain ⟨hstart, hstop⟩ := h
  simp only [start, stop] at hstart hstop ⊢
  have hchar {i : Nat} (hi : before.length ≤ i) (hlt : i < before.length + text.length) :
      ∃ c, t[i]? = some c ∧ IsRunChar c := by
    have hindex : i - before.length < text.length := by omega
    refine ⟨text[i - before.length], ?_, hchars _ (List.getElem_mem hindex)⟩
    rw [ht, List.getElem?_append_right hi, List.getElem?_append_left hindex, List.getElem?_eq_getElem hindex]
  constructor
  · by_contra hlt
    obtain ⟨c, hc, hrun⟩ := hchar (i := r.before.length - 1) (by omega) (by omega)
    exact r.not_isRunChar_left (by omega) hc hrun
  · by_contra hlt
    obtain ⟨c, hc, hrun⟩ := hchar (i := r.before.length + r.text.length) (by omega) (by omega)
    exact r.not_isRunChar_right rfl hc hrun

theorem eq_of_touches {r s : Run line} {column : Int} (hr : r.Touches column) (hs : s.Touches column) : r = s := by
  obtain ⟨hstart, hstop⟩ := r.contains hr s.eq_append s.chars hs.1 hs.2
  obtain ⟨hstart', hstop'⟩ := s.contains hs r.eq_append r.chars hr.1 hr.2
  have hbefore : r.before.length = s.before.length := Nat.le_antisymm hstart hstart'
  have htext : r.text.length = s.text.length := by
    have hend : r.before.length + r.text.length = s.before.length + s.text.length := Nat.le_antisymm hstop' hstop
    omega
  have hline := r.eq_append.symm.trans s.eq_append
  obtain ⟨hleft, hrest⟩ := List.append_inj hline hbefore
  obtain ⟨hmiddle, hright⟩ := List.append_inj hrest htext
  cases r
  cases s
  simp_all

theorem not_isRunChar_head?_dropWhile (t : Text) : ∀ c ∈ (t.dropWhile isExpressionChar).head?, ¬ IsRunChar c := by
  intro c hc
  have hfirst := List.head?_dropWhile_not isExpressionChar t
  rw [Option.mem_def.mp hc] at hfirst
  exact isExpressionChar_eq_false_iff.mp hfirst

theorem isRunChar_of_mem_takeWhile {t : Text} {c : Char} (h : c ∈ t.takeWhile isExpressionChar) : IsRunChar c :=
  isExpressionChar_iff.mp (List.mem_takeWhile_imp h)

/-- Going left and right from a column as far as there are run characters ends at a run. -/
theorem exists_touches {k : Nat} (hk : k ≤ line.length) : ∃ r : Run line, r.Touches k := by
  obtain ⟨left, hleft⟩ : ∃ left, left = (line.take k).reverse := ⟨_, rfl⟩
  have htake : line.take k =
      (left.dropWhile isExpressionChar).reverse ++ (left.takeWhile isExpressionChar).reverse := by
    rw [← List.reverse_append, List.takeWhile_append_dropWhile, hleft, List.reverse_reverse]
  have hlength : (left.dropWhile isExpressionChar).length + (left.takeWhile isExpressionChar).length = k := by
    have := congrArg List.length htake
    simpa [hk] using this.symm
  refine ⟨⟨(left.dropWhile isExpressionChar).reverse,
    (left.takeWhile isExpressionChar).reverse ++ (line.drop k).takeWhile isExpressionChar,
    (line.drop k).dropWhile isExpressionChar, ?_, ?_, ?_, ?_⟩, ?_, ?_⟩
  · rw [List.append_assoc, List.takeWhile_append_dropWhile, ← List.append_assoc, ← htake, List.take_append_drop]
  · intro c hc
    rcases List.mem_append.mp hc with hc | hc
    · exact isRunChar_of_mem_takeWhile (List.mem_reverse.mp hc)
    · exact isRunChar_of_mem_takeWhile hc
  · rw [List.getLast?_reverse]
    exact not_isRunChar_head?_dropWhile left
  · exact not_isRunChar_head?_dropWhile (line.drop k)
  · simp only [start, List.length_reverse]
    omega
  · simp only [stop, List.length_reverse, List.length_append]
    omega

end Run

/-- The column, or the nearer end of the line if it is outside. -/
def nearestColumn (line : Text) (column : Int) : Int := max 0 (min column line.length)

theorem expressionAt?_nearestColumn (line : Text) (column : Int) :
    expressionAt? line (nearestColumn line column) = expressionAt? line column := by
  have hnearest : (nearestColumn line column).toNat = min column.toNat line.length := by
    rw [nearestColumn]
    omega
  have htake : line.take (min column.toNat line.length) = line.take column.toNat := by
    rw [← List.take_take, List.take_length]
  have hdrop : line.drop (min column.toNat line.length) = line.drop column.toNat := by
    rcases Nat.le_total column.toNat line.length with h | h
    · rw [Nat.min_eq_left h]
    · rw [Nat.min_eq_right h, List.drop_length, List.drop_of_length_le h]
  unfold expressionAt?
  rw [hnearest, htake, hdrop]

/-- Every column, those outside the line counted as the nearer end, touches exactly one run of the line, and every
stretch of run characters that touches the column lies in it. The expression at the column is the text of this run if
it has a letter or an underscore, and otherwise there is none. So the expression is the same at all columns that touch
one run, and whatever is given as an expression stands in the line as a run. -/
theorem expressionAt?_touched_run (line : Text) (column : Int) :
    (∃ r : Run line, r.Touches (nearestColumn line column) ∧
      (∀ s : Run line, s.Touches (nearestColumn line column) → s = r) ∧
      (∀ before text after, line = before ++ (text ++ after) → (∀ c ∈ text, IsRunChar c) →
        before.length ≤ nearestColumn line column →
        nearestColumn line column ≤ (before.length + text.length : Nat) →
        r.start ≤ before.length ∧ before.length + text.length ≤ r.stop) ∧
      ((∃ c ∈ r.text, IsNameLetter c) → expressionAt? line column = some r.text) ∧
      ((∀ c ∈ r.text, ¬ IsNameLetter c) → expressionAt? line column = none)) ∧
    (∀ (r : Run line) (i j : Int), r.Touches i → r.Touches j → expressionAt? line i = expressionAt? line j) ∧
    ∀ e, expressionAt? line column = some e → ∃ r : Run line, r.text = e := by
  obtain ⟨k, hk, hcolumn⟩ : ∃ k : Nat, k ≤ line.length ∧ nearestColumn line column = k :=
    ⟨(nearestColumn line column).toNat, by rw [nearestColumn]; omega, by rw [nearestColumn]; omega⟩
  rw [← expressionAt?_nearestColumn line column, hcolumn]
  obtain ⟨r, hr⟩ := Run.exists_touches hk
  have hexpression := r.expressionAt?_eq hr
  refine ⟨⟨r, hr, fun s hs => Run.eq_of_touches hs hr, fun before text after => r.contains hr, ?_, ?_⟩, ?_, ?_⟩
  · rintro ⟨c, hc, hletter⟩
    rw [hexpression, if_pos (List.any_eq_true.mpr ⟨c, hc, isIdentStart_iff.mpr hletter⟩)]
  · intro hnone
    rw [hexpression, if_neg]
    intro hany
    obtain ⟨c, hc, hletter⟩ := List.any_eq_true.mp hany
    exact hnone c hc (isIdentStart_iff.mp hletter)
  · intro s i j hi hj
    rw [s.expressionAt?_eq hi, s.expressionAt?_eq hj]
  · intro e he
    rw [hexpression] at he
    split at he
    · exact ⟨r, Option.some.inj he⟩
    · cases he

theorem expressionAt?_touched_run_apart :
    let line : Text := "é.f1 9.0"
    (∃ r : Run line, r.text = ".f1" ∧ r.Touches 1 ∧ r.Touches (nearestColumn line 4) ∧
      (∃ c ∈ r.text, IsNameLetter c) ∧ expressionAt? line 4 = some r.text ∧
      expressionAt? line 1 = expressionAt? line 4) ∧
    ∃ r : Run line, r.text = "9.0" ∧ r.Touches (nearestColumn line 99) ∧ (∀ c ∈ r.text, ¬ IsNameLetter c) ∧
      expressionAt? line 99 = none := by
  intro line
  let word : Run line := ⟨"é", ".f1", " 9.0", rfl, by decide, by rintro c ⟨⟩; decide, by rintro c ⟨⟩; decide⟩
  let number : Run line := ⟨"é.f1 ", "9.0", [], rfl, by decide, by rintro c ⟨⟩; decide, nofun⟩
  have hword : word.Touches (nearestColumn line 4) := by decide
  have hnumber : number.Touches (nearestColumn line 99) := by decide
  obtain ⟨⟨r, -, hfirst, -, hsome, -⟩, hsame, -⟩ := expressionAt?_touched_run line 4
  obtain ⟨⟨s, -, hlast, -, -, hnone⟩, -, -⟩ := expressionAt?_touched_run line 99
  obtain rfl := hfirst word hword
  obtain rfl := hlast number hnumber
  have hletter : ∃ c ∈ word.text, IsNameLetter c := ⟨'f', by decide, by decide⟩
  have hdigits : ∀ c ∈ number.text, ¬ IsNameLetter c := by decide
  exact ⟨⟨word, rfl, by decide, hword, hletter, hsome hletter, hsame word 1 4 (by decide) (by decide)⟩,
    number, rfl, hnumber, hdigits, hnone hdigits⟩

end EditorInsight.Cursor
