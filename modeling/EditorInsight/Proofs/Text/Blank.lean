import Mathlib.Data.List.TakeWhile
import EditorInsight.Proofs.Text.Cutting
import EditorInsight.Text.Identifier
import EditorInsight.Text.Lines
import EditorInsight.Text.Word

/-!
# Laws of trimming and of blank runs

Where a text is cut into blank runs and words, trimming and collapsing act on the pieces. Later proofs
use these laws and do not open the definitions.
-/

namespace EditorInsight.Text

/-- What holds of all characters of a text is found by going through the text. -/
instance decidableForallMem (p : Char → Prop) [DecidablePred p] (t : Text) : Decidable (∀ c ∈ t, p c) :=
  List.decidableBAll p t

theorem isBlank_of_mem_nil : ∀ c ∈ ([] : Text), isBlank c = true := by simp

theorem isBlank_of_mem_space : ∀ c ∈ ([' '] : Text), isBlank c = true := by decide

theorem space_ne_nil : ([' '] : Text) ≠ [] := by simp

/-! Trimming. -/

theorem trimLeft_blanks_append {b : Text} (hb : ∀ c ∈ b, isBlank c = true) (t : Text) :
    trimLeft (b ++ t) = trimLeft t := by
  unfold trimLeft
  exact List.dropWhile_append_of_pos hb

theorem trimLeft_cons {c : Char} (hc : isBlank c = false) (t : Text) :
    trimLeft (c :: t) = c :: t := by
  simp [trimLeft, hc]

theorem trimLeft_of_isTopLevel {line : Text} (h : isTopLevel line = true) : trimLeft line = line := by
  cases line with
  | nil => rfl
  | cons c r => exact trimLeft_cons (by simpa [isTopLevel] using h) r

theorem exists_blanks_trimLeft (t : Text) :
    ∃ b, (∀ c ∈ b, isBlank c = true) ∧ t = b ++ trimLeft t := by
  refine ⟨t.takeWhile isBlank, ?_, ?_⟩
  · intro c hc
    exact List.mem_takeWhile_imp hc
  · exact List.takeWhile_append_dropWhile.symm

theorem isBlank_of_trimLeft_eq_cons {t r : Text} {c : Char} (h : trimLeft t = c :: r) :
    isBlank c = false := by
  have := List.head?_dropWhile_not isBlank t
  unfold trimLeft at h
  rw [h] at this
  simpa using this

theorem trimRight_blanks {b : Text} (hb : ∀ c ∈ b, isBlank c = true) : trimRight b = [] := by
  unfold trimRight
  rw [List.reverse_eq_nil_iff, List.dropWhile_eq_nil_iff]
  intro c hc
  exact hb c (List.mem_reverse.mp hc)

theorem trimRight_append_cons {c : Char} (hc : isBlank c = false) (x y : Text) :
    trimRight (x ++ c :: y) = x ++ c :: trimRight y := by
  unfold trimRight
  rw [List.reverse_append, List.reverse_cons]
  rcases List.eq_nil_or_concat (y.reverse.dropWhile isBlank) with h | ⟨u, d, h⟩
  · rw [List.append_assoc, List.dropWhile_append, h]
    simp [hc]
  · rw [List.append_assoc, List.dropWhile_append, h]
    simp

theorem exists_trimRight_blanks (t : Text) :
    ∃ b, (∀ c ∈ b, isBlank c = true) ∧ t = trimRight t ++ b := by
  refine ⟨(t.reverse.takeWhile isBlank).reverse, ?_, ?_⟩
  · intro c hc
    exact List.mem_takeWhile_imp (List.mem_reverse.mp hc)
  · unfold trimRight
    rw [← List.reverse_append, List.takeWhile_append_dropWhile, List.reverse_reverse]

theorem trimRight_append_blanks {b : Text} (hb : ∀ c ∈ b, isBlank c = true) (t : Text) :
    trimRight (t ++ b) = trimRight t := by
  unfold trimRight
  rw [List.reverse_append, List.dropWhile_append_of_pos fun c hc => hb c (List.mem_reverse.mp hc)]

theorem length_trimRight_le (t : Text) : (trimRight t).length ≤ t.length := by
  obtain ⟨b, -, ht⟩ := exists_trimRight_blanks t
  have hlength := congrArg List.length ht
  rw [List.length_append] at hlength
  omega

theorem exists_blanks_trim (t : Text) :
    ∃ b b', (∀ c ∈ b, isBlank c = true) ∧ (∀ c ∈ b', isBlank c = true) ∧ t = b ++ trim t ++ b' := by
  obtain ⟨b, hb, hleft⟩ := exists_blanks_trimLeft t
  obtain ⟨b', hb', hright⟩ := exists_trimRight_blanks (trimLeft t)
  refine ⟨b, b', hb, hb', ?_⟩
  rw [trim, List.append_assoc, ← hright, ← hleft]

theorem infix_trim (t : Text) : trim t <:+: t := by
  obtain ⟨b, b', -, -, ht⟩ := exists_blanks_trim t
  exact ⟨b, b', ht.symm⟩

theorem trimRight_trimRight (t : Text) : trimRight (trimRight t) = trimRight t := by
  obtain ⟨b, hb, ht⟩ := exists_trimRight_blanks t
  have hdrop := trimRight_append_blanks hb (trimRight t)
  rw [← ht] at hdrop
  exact hdrop.symm

theorem trim_trim (t : Text) : trim (trim t) = trim t := by
  cases hleft : trimLeft t with
  | nil => rw [trim, trim, hleft]; rfl
  | cons c r =>
    have hc := isBlank_of_trimLeft_eq_cons hleft
    have htrim : trim t = c :: trimRight r := by
      rw [trim, hleft]
      exact trimRight_append_cons hc [] r
    rw [htrim, trim, trimLeft_cons hc, ← htrim, trim, trimRight_trimRight]

theorem trimLeft_append_cons {c : Char} (hc : isBlank c = false) (x y : Text) :
    trimLeft (x ++ c :: y) = trimLeft x ++ c :: y := by
  induction x with
  | nil => exact trimLeft_cons hc y
  | cons d x ih =>
    cases hd : isBlank d with
    | true =>
      have hb : ∀ e ∈ [d], isBlank e = true := by simpa using hd
      have hleft := trimLeft_blanks_append hb x
      have hboth := trimLeft_blanks_append hb (x ++ c :: y)
      rw [List.singleton_append] at hleft hboth
      rw [List.cons_append, hboth, hleft, ih]
    | false => rw [List.cons_append, trimLeft_cons hd, trimLeft_cons hd, List.cons_append]

theorem trim_append_cons {c : Char} (hc : isBlank c = false) (x y : Text) :
    trim (x ++ c :: y) = trimLeft x ++ c :: trimRight y := by
  rw [trim, trimLeft_append_cons hc, trimRight_append_cons hc]

theorem trim_blanks_append {b : Text} (hb : ∀ c ∈ b, isBlank c = true) (t : Text) :
    trim (b ++ t) = trim t := by
  rw [trim, trim, trimLeft_blanks_append hb]

theorem trim_append_blanks {b : Text} (hb : ∀ c ∈ b, isBlank c = true) (t : Text) :
    trim (t ++ b) = trim t := by
  obtain ⟨a, ha, ht⟩ := exists_blanks_trimLeft t
  rw [ht, List.append_assoc, trim_blanks_append ha, trim_blanks_append ha]
  cases hleft : trimLeft t with
  | nil =>
    have hblank := trim_blanks_append hb []
    rw [List.append_nil] at hblank
    exact hblank
  | cons c r =>
    have hc := isBlank_of_trimLeft_eq_cons hleft
    rw [trim, trim, List.cons_append, trimLeft_cons hc, trimLeft_cons hc, ← List.cons_append,
      trimRight_append_blanks hb]

theorem trim_eq_self {t : Text} {c d : Char} (hfirst : t.head? = some c) (hc : isBlank c = false)
    (hlast : t.getLast? = some d) (hd : isBlank d = false) : trim t = t := by
  obtain ⟨r, rfl⟩ : ∃ r, t = c :: r := by
    cases t with
    | nil => simp at hfirst
    | cons e r => exact ⟨r, by simpa using hfirst⟩
  obtain ⟨u, hu⟩ := List.getLast?_eq_some_iff.mp hlast
  rw [trim, trimLeft_cons hc, hu, trimRight_append_cons hd]
  rfl

theorem exists_ends_of_trim_eq {t : Text} (hne : t ≠ []) (h : trim t = t) :
    ∃ c d, t.head? = some c ∧ isBlank c = false ∧ t.getLast? = some d ∧ isBlank d = false := by
  have hleft : trimLeft t = t := by
    refine (List.dropWhile_suffix isBlank).eq_of_length_le ?_
    have hlength := length_trimRight_le (trimLeft t)
    rw [trim] at h
    rwa [h] at hlength
  refine ⟨t.head hne, t.getLast hne, List.head?_eq_some_head hne, ?_,
    List.getLast?_eq_some_getLast hne, ?_⟩
  · cases t with
    | nil => exact absurd rfl hne
    | cons c r => exact isBlank_of_trimLeft_eq_cons hleft
  · by_contra hlast
    rw [Bool.not_eq_false] at hlast
    have hdrop := trimRight_append_blanks (b := [t.getLast hne]) (by simpa using hlast) t.dropLast
    rw [List.dropLast_concat_getLast hne] at hdrop
    rw [trim, hleft] at h
    have hlength := length_trimRight_le t.dropLast
    rw [← hdrop, h, List.length_dropLast] at hlength
    have := List.length_pos_iff.mpr hne
    omega

theorem trim_between_blanks {b t b' : Text} (hb : ∀ c ∈ b, isBlank c = true)
    (hb' : ∀ c ∈ b', isBlank c = true) (hne : t ≠ []) (h : trim t = t) :
    trim (b ++ (t ++ b')) = t := by
  obtain ⟨c, -, hfirst, hc, -, -⟩ := exists_ends_of_trim_eq hne h
  obtain ⟨r, rfl⟩ := List.head?_eq_some_iff.mp hfirst
  rw [trim, trimLeft_cons hc] at h
  rw [trim_blanks_append hb, trim, List.cons_append, trimLeft_cons hc, ← List.cons_append,
    trimRight_append_blanks hb', h]

/-! Blank runs. -/

theorem afterBlanks_eq_true_iff {p : Text → Bool} {t : Text} :
    afterBlanks p t = true ↔ ∃ b u, (∀ c ∈ b, isBlank c = true) ∧ t = b ++ u ∧ p u = true := by
  induction t with
  | nil =>
    constructor
    · intro h
      exact ⟨[], [], by simp, rfl, h⟩
    · rintro ⟨b, u, -, ht, hp⟩
      obtain ⟨rfl, rfl⟩ := List.append_eq_nil_iff.mp ht.symm
      exact hp
  | cons c r ih =>
    rw [afterBlanks, Bool.or_eq_true, Bool.and_eq_true, ih]
    constructor
    · rintro (h | ⟨hc, b, u, hb, rfl, hp⟩)
      · exact ⟨[], c :: r, by simp, rfl, h⟩
      · exact ⟨c :: b, u, List.forall_mem_cons.mpr ⟨hc, hb⟩, rfl, hp⟩
    · rintro ⟨b, u, hb, ht, hp⟩
      cases b with
      | nil =>
        rw [List.nil_append] at ht
        exact Or.inl (ht ▸ hp)
      | cons d b =>
        obtain ⟨rfl, rfl⟩ := List.cons.inj ht
        obtain ⟨hc, hb⟩ := List.forall_mem_cons.mp hb
        exact Or.inr ⟨hc, b, u, hb, rfl, hp⟩

theorem skipBlanks1?_eq_some {t r : Text} (h : skipBlanks1? t = some r) :
    ∃ b, b ≠ [] ∧ (∀ c ∈ b, isBlank c = true) ∧ t = b ++ r := by
  cases t with
  | nil => simp [skipBlanks1?] at h
  | cons c t =>
    rw [skipBlanks1?] at h
    split at h
    · rename_i hc
      obtain ⟨b, hb, ht⟩ := exists_blanks_trimLeft t
      refine ⟨c :: b, by simp, List.forall_mem_cons.mpr ⟨hc, hb⟩, ?_⟩
      rw [← Option.some.inj h, List.cons_append, ← ht]
    · simp at h

theorem skipBlanks1?_blanks_append {b : Text} {c : Char} (hne : b ≠ [])
    (hb : ∀ d ∈ b, isBlank d = true) (hc : isBlank c = false) (t : Text) :
    skipBlanks1? (b ++ c :: t) = some (c :: t) := by
  cases b with
  | nil => exact absurd rfl hne
  | cons d b =>
    obtain ⟨hd, hb⟩ := List.forall_mem_cons.mp hb
    rw [List.cons_append, skipBlanks1?, if_pos hd, trimLeft_blanks_append hb, trimLeft_cons hc]

/-- Collapsing goes on in the gap state that the last character leaves. -/
theorem collapseFrom_append (gap : Bool) (x y : Text) :
    collapseFrom gap (x ++ y) =
      collapseFrom gap x ++ collapseFrom ((x.getLast?.map isBlank).getD gap) y := by
  induction x generalizing gap with
  | nil => simp [collapseFrom]
  | cons c x ih =>
    have hlast (g : Bool) : ((c :: x).getLast?.map isBlank).getD g =
        (x.getLast?.map isBlank).getD (isBlank c) := by
      rw [List.getLast?_cons]
      cases x.getLast? <;> rfl
    rw [hlast, List.cons_append, collapseFrom, collapseFrom]
    split
    · rename_i hc
      rw [hc]
      split
      · exact ih true
      · rw [ih true, List.cons_append]
    · rename_i hc
      rw [Bool.eq_false_iff.mpr hc, ih false, List.cons_append]

theorem collapseFrom_word {x : Text} (hx : ∀ c ∈ x, isBlank c = false) :
    collapseFrom false x = x := by
  induction x with
  | nil => rfl
  | cons c x ih =>
    obtain ⟨hc, hx⟩ := List.forall_mem_cons.mp hx
    rw [collapseFrom, if_neg (by simp [hc]), ih hx]

theorem collapseFrom_true_blanks {b : Text} (hb : ∀ c ∈ b, isBlank c = true) :
    collapseFrom true b = [] := by
  induction b with
  | nil => rfl
  | cons c b ih =>
    obtain ⟨hc, hb⟩ := List.forall_mem_cons.mp hb
    rw [collapseFrom, if_pos hc, if_pos rfl, ih hb]

theorem collapseFrom_false_blanks {b : Text} (hne : b ≠ []) (hb : ∀ c ∈ b, isBlank c = true) :
    collapseFrom false b = [' '] := by
  cases b with
  | nil => exact absurd rfl hne
  | cons c b =>
    obtain ⟨hc, hb⟩ := List.forall_mem_cons.mp hb
    rw [collapseFrom, if_pos hc, if_neg (by simp), collapseFrom_true_blanks hb]

/-- After a character that is not blank it does not matter whether a blank run had begun before it. -/
theorem collapseFrom_cons {c : Char} (hc : isBlank c = false) (gap : Bool) (t : Text) :
    collapseFrom gap (c :: t) = c :: collapseFrom false t := by
  rw [collapseFrom, if_neg (by simp [hc])]

theorem collapseFrom_blanks_append {b : Text} {c : Char} (hne : b ≠ [])
    (hb : ∀ d ∈ b, isBlank d = true) (hc : isBlank c = false) (t : Text) :
    collapseFrom false (b ++ c :: t) = ' ' :: c :: collapseFrom false t := by
  rw [collapseFrom_append, collapseFrom_false_blanks hne hb, collapseFrom_cons hc]
  rfl

theorem collapseFrom_word_append {x : Text} (hx : ∀ c ∈ x, isBlank c = false) (t : Text) :
    collapseFrom false (x ++ t) = x ++ collapseFrom false t := by
  rw [collapseFrom_append, collapseFrom_word hx]
  rcases List.eq_nil_or_concat x with rfl | ⟨y, c, rfl⟩
  · rfl
  · have hc := hx c (by simp)
    simp [hc]

theorem collapseFrom_append_cons {c : Char} (hc : isBlank c = false) (gap : Bool) (x y : Text) :
    collapseFrom gap (x ++ c :: y) = collapseFrom gap x ++ c :: collapseFrom false y := by
  rw [collapseFrom_append, collapseFrom_cons hc]

theorem mem_of_mem_collapseFrom {gap : Bool} {t : Text} {c : Char} (h : c ∈ collapseFrom gap t) :
    c = ' ' ∨ c ∈ t := by
  induction t generalizing gap with
  | nil => simp [collapseFrom] at h
  | cons d t ih =>
    rw [collapseFrom] at h
    have hrest {g : Bool} (h : c ∈ collapseFrom g t) : c = ' ' ∨ c ∈ d :: t :=
      (ih h).imp_right (List.mem_cons_of_mem d)
    split at h
    · split at h
      · exact hrest h
      · rcases List.mem_cons.mp h with rfl | h
        · exact Or.inl rfl
        · exact hrest h
    · rcases List.mem_cons.mp h with rfl | h
      · exact Or.inr List.mem_cons_self
      · exact hrest h

theorem mem_collapseFrom {gap : Bool} {t : Text} {c : Char} (hc : isBlank c = false) (h : c ∈ t) :
    c ∈ collapseFrom gap t := by
  obtain ⟨x, y, rfl⟩ := List.append_of_mem h
  rw [collapseFrom_append_cons hc]
  simp

theorem collapseFrom_ne_nil {t : Text} (h : t ≠ []) : collapseFrom false t ≠ [] := by
  cases t with
  | nil => exact absurd rfl h
  | cons c t =>
    rw [collapseFrom]
    split <;> simp

theorem exists_of_collapseFrom_eq {gap : Bool} {t x y : Text} {c : Char} (hc : isBlank c = false)
    (h : collapseFrom gap t = x ++ c :: y) :
    ∃ u v, t = u ++ c :: v ∧ collapseFrom gap u = x ∧ collapseFrom false v = y := by
  induction t generalizing gap x with
  | nil => simp [collapseFrom] at h
  | cons d t ih =>
    cases hd : isBlank d with
    | false =>
      rw [collapseFrom_cons hd] at h
      cases x with
      | nil =>
        obtain ⟨rfl, rfl⟩ := List.cons.inj h
        exact ⟨[], t, rfl, rfl, rfl⟩
      | cons e x =>
        obtain ⟨rfl, hrest⟩ := List.cons.inj h
        obtain ⟨u, v, rfl, hu, hv⟩ := ih hrest
        exact ⟨d :: u, v, rfl, by rw [collapseFrom_cons hd, hu], hv⟩
    | true =>
      cases gap with
      | true =>
        rw [collapseFrom, if_pos hd, if_pos rfl] at h
        obtain ⟨u, v, rfl, hu, hv⟩ := ih h
        exact ⟨d :: u, v, rfl, by rw [collapseFrom, if_pos hd, if_pos rfl, hu], hv⟩
      | false =>
        rw [collapseFrom, if_pos hd, if_neg (by simp)] at h
        cases x with
        | nil =>
          obtain ⟨rfl, -⟩ := List.cons.inj h
          exact absurd hc (by decide)
        | cons e x =>
          obtain ⟨rfl, hrest⟩ := List.cons.inj h
          obtain ⟨u, v, rfl, hu, hv⟩ := ih hrest
          exact ⟨d :: u, v, rfl, by rw [collapseFrom, if_pos hd, if_neg (by simp), hu], hv⟩

theorem collapseFrom_of_single {t : Text} (hspace : ∀ c ∈ t, isBlank c = true → c = ' ')
    (hsingle : ¬ [' ', ' '] <:+: t) : collapseFrom false t = t := by
  induction t with
  | nil => rfl
  | cons c t ih =>
    obtain ⟨hc, hspace⟩ := List.forall_mem_cons.mp hspace
    have hrest := ih hspace fun h => hsingle (h.trans (List.suffix_cons c t).isInfix)
    cases hblank : isBlank c with
    | false => rw [collapseFrom_cons hblank, hrest]
    | true =>
      obtain rfl := hc hblank
      rw [collapseFrom, if_pos hblank, if_neg (by simp)]
      cases t with
      | nil => rfl
      | cons d t =>
        have hd : isBlank d = false := by
          by_contra hd
          obtain rfl := hspace d (by simp) (by simpa using hd)
          exact hsingle ⟨[], t, rfl⟩
        rw [collapseFrom_cons hd, ← collapseFrom_cons hd false, hrest]

/-! Blank characters and words. -/

/-- The code points of the blank characters. -/
private def blankCodes : List Nat :=
  [9, 10, 11, 12, 13, 28, 29, 30, 31, 32, 0x85, 0xA0, 0x1680, 0x2000, 0x2001, 0x2002, 0x2003, 0x2004,
    0x2005, 0x2006, 0x2007, 0x2008, 0x2009, 0x200A, 0x2028, 0x2029, 0x202F, 0x205F, 0x3000]

theorem isWordChar_of_isBlank {c : Char} (h : isBlank c = true) : isWordChar c = false := by
  have hcode : c.val.toNat ∈ blankCodes := by
    simp only [isBlank, Bool.or_eq_true, Bool.and_eq_true, decide_eq_true_eq, beq_iff_eq] at h
    simp only [blankCodes, List.mem_cons, List.not_mem_nil, or_false]
    omega
  have hall : ∀ n ∈ blankCodes, isWordChar (Char.ofNat n) = false := by decide +kernel
  have hc := hall _ hcode
  rwa [show Char.ofNat c.val.toNat = c from Char.ofNat_toNat c] at hc

/-! Identifiers. -/

theorem isBlank_of_isIdentPart {c : Char} (h : isIdentPart c = true) : isBlank c = false := by
  have hn : c.val.toNat = 95 ∨ (48 ≤ c.val.toNat ∧ c.val.toNat ≤ 57) ∨
      (65 ≤ c.val.toNat ∧ c.val.toNat ≤ 90) ∨ (97 ≤ c.val.toNat ∧ c.val.toNat ≤ 122) := by
    delta isIdentPart Char.isAlphanum Char.isAlpha Char.isUpper Char.isLower Char.isDigit at h
    simp only [Bool.or_eq_true, Bool.and_eq_true, decide_eq_true_eq, beq_iff_eq] at h
    rcases h with ((⟨h₁, h₂⟩ | ⟨h₁, h₂⟩) | ⟨h₁, h₂⟩) | rfl
    · exact Or.inr (Or.inr (Or.inl ⟨h₁, h₂⟩))
    · exact Or.inr (Or.inr (Or.inr ⟨h₁, h₂⟩))
    · exact Or.inr (Or.inl ⟨h₁, h₂⟩)
    · exact Or.inl rfl
  simp only [isBlank, Bool.or_eq_false_iff, Bool.and_eq_false_iff, decide_eq_false_iff_not,
    beq_eq_false_iff_ne, ne_eq]
  omega

theorem identifier?_eq_some {t name r : Text} (h : identifier? t = some (name, r)) :
    t = name ++ r ∧ isIdentifier name = true ∧ ∀ c ∈ r.head?, isIdentPart c = false := by
  cases t with
  | nil => simp [identifier?] at h
  | cons c t =>
    rw [identifier?] at h
    split at h
    · rename_i hc
      obtain ⟨rfl, rfl⟩ := Prod.mk.inj (Option.some.inj h)
      refine ⟨?_, ?_, ?_⟩
      · rw [List.cons_append, List.takeWhile_append_dropWhile]
      · simp [isIdentifier, hc]
      · intro d hd
        have hnot := List.head?_dropWhile_not isIdentPart t
        rw [Option.mem_def] at hd
        rw [hd] at hnot
        simpa using hnot
    · simp at h

theorem identifier?_append {name r : Text} (hname : isIdentifier name = true)
    (hr : ∀ c ∈ r.head?, isIdentPart c = false) : identifier? (name ++ r) = some (name, r) := by
  cases name with
  | nil => simp [isIdentifier] at hname
  | cons c name =>
    rw [isIdentifier, Bool.and_eq_true, List.all_eq_true] at hname
    rw [List.cons_append, identifier?, if_pos hname.1,
      List.takeWhile_append_of_pos hname.2, List.dropWhile_append_of_pos hname.2]
    cases r with
    | nil => simp
    | cons d r =>
      have hd := hr d rfl
      simp [hd]

theorem isIdentPart_of_mem_identifier {name : Text} (h : isIdentifier name = true) {c : Char}
    (hc : c ∈ name) : isIdentPart c = true := by
  cases name with
  | nil => simp at hc
  | cons d name =>
    rw [isIdentifier, Bool.and_eq_true, List.all_eq_true] at h
    rcases List.mem_cons.mp hc with rfl | hc
    · exact isIdentPart_of_isIdentStart h.1
    · exact h.2 c hc

theorem isWordChar_of_isIdentPart {c : Char} (h : isIdentPart c = true) : isWordChar c = true := by
  simp only [isIdentPart, Bool.or_eq_true] at h
  rcases h with h | h <;> simp [isWordChar, h]

theorem exists_getLast?_identifier {name : Text} (h : isIdentifier name = true) :
    ∃ c, name.getLast? = some c ∧ isIdentPart c = true := by
  cases name with
  | nil => simp [isIdentifier] at h
  | cons c r =>
    rw [isIdentifier, Bool.and_eq_true, List.all_eq_true] at h
    refine ⟨(c :: r).getLast (by simp), List.getLast?_eq_some_getLast _, ?_⟩
    rcases List.mem_cons.mp (List.getLast_mem (by simp : c :: r ≠ [])) with he | hr
    · rw [he]
      exact isIdentPart_of_isIdentStart h.1
    · exact h.2 _ hr

theorem isBlank_of_mem_identifier {name : Text} (h : isIdentifier name = true) {c : Char}
    (hc : c ∈ name) : isBlank c = false :=
  isBlank_of_isIdentPart (isIdentPart_of_mem_identifier h hc)

theorem not_mem_identifier {name : Text} (h : isIdentifier name = true) {c : Char}
    (hc : isIdentPart c = false) : c ∉ name := by
  intro hmem
  rw [isIdentPart_of_mem_identifier h hmem] at hc
  contradiction

theorem isName_of_isIdentifier {name : Text} (h : isIdentifier name = true) : isName name = true := by
  have hwhole : identifier? (name ++ []) = some (name, []) := identifier?_append h (by simp)
  rw [List.append_nil] at hwhole
  rw [isName, hwhole]

end EditorInsight.Text
