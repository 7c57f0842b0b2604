import EditorInsight.Data.Value

/-!
# Values that can be shown

A value is shown with its parts inside it. Showing fails at the first part that lies too deep or is a whole number
of too many digits; where no part is such, it succeeds.
-/

namespace EditorInsight.Value

/-- The second value is shown in the first, with so many levels above it. The items of a set are shown in a list. -/
inductive HasPart : Value → Nat → Value → Prop
  | self (v : Value) : HasPart v 0 v
  | item {items : List Value} {x y : Value} {d : Nat} (hx : x ∈ items) (h : HasPart x d y) :
    HasPart (.list items) (d + 1) y
  | member {items : List Value} {x y : Value} {d : Nat} (hx : x ∈ items) (h : HasPart x d y) :
    HasPart (.set items) (d + 2) y
  | key {entries : List (Value × Value)} {e : Value × Value} {y : Value} {d : Nat} (he : e ∈ entries)
    (h : HasPart e.1 d y) : HasPart (.map entries) (d + 1) y
  | value {entries : List (Value × Value)} {e : Value × Value} {y : Value} {d : Nat} (he : e ∈ entries)
    (h : HasPart e.2 d y) : HasPart (.map entries) (d + 1) y
  | first {a b y : Value} {d : Nat} (h : HasPart a d y) : HasPart (.pair a b) (d + 1) y
  | second {a b y : Value} {d : Nat} (h : HasPart b d y) : HasPart (.pair a b) (d + 1) y

/-- The levels below a value that are taken by no part of it. -/
def zonesBelow : Value → Nat
  | timestamp s => zoneLevels s
  | _ => 0

/-- A part at the given depth keeps a value from being shown. -/
def ShowFault.At (levels d : Nat) (y : Value) : ShowFault → Prop
  | tooDeep => levels ≤ d + y.zonesBelow
  | tooManyDigits => ∃ n : Int, y = .int n ∧ Nat.pow 10 Numeral.maxDigits ≤ n.natAbs

variable {levels n d : Nat} {v y : Value} {f : ShowFault}

theorem ShowFault.at_succ_iff : f.At (n + 1) (d + 1) y ↔ f.At n d y := by
  cases f with
  | tooDeep =>
    simp only [ShowFault.At]
    omega
  | tooManyDigits => exact Iff.rfl

theorem exists_part_set {items : List Value} (hne : items ≠ [])
    (h : ∃ d y, HasPart (.list items) d y ∧ f.At n d y) : ∃ d y, HasPart (.set items) d y ∧ f.At (n + 1) d y := by
  obtain ⟨d, y, hpart, hat⟩ := h
  cases hpart with
  | self =>
    -- only the list itself lies too deep, and its first item lies deeper
    cases f with
    | tooDeep =>
      have hn : n ≤ 0 + 0 := hat
      obtain ⟨x, hx⟩ := List.exists_mem_of_ne_nil items hne
      exact ⟨2, x, .member hx (.self x), Nat.le_trans (by omega : n + 1 ≤ 2) (Nat.le_add_right _ _)⟩
    | tooManyDigits =>
      obtain ⟨i, hi, -⟩ := hat
      cases hi
  | item hx h => exact ⟨_, y, .member hx h, ShowFault.at_succ_iff.mpr hat⟩

/-- The induction is on the levels that are left; each kind of collection takes one for its parts. -/
theorem exists_part_of_literalFault? (h : literalFault? levels v = some f) :
    ∃ d y, v.HasPart d y ∧ f.At levels d y := by
  induction levels generalizing v with
  | zero =>
    obtain rfl := Option.some.inj h
    exact ⟨0, v, .self v, Nat.zero_le _⟩
  | succ n ih =>
    have hbelow {x : Value} (hx : literalFault? n x = some f) :
        ∃ d y, x.HasPart d y ∧ f.At (n + 1) (d + 1) y := by
      obtain ⟨d, y, hpart, hat⟩ := ih hx
      exact ⟨d, y, hpart, ShowFault.at_succ_iff.mpr hat⟩
    cases v with
    | int i =>
      simp only [literalFault?, Option.ite_none_left_eq_some, Option.some.injEq] at h
      obtain ⟨hlong, rfl⟩ := h
      exact ⟨0, _, .self _, i, rfl, Nat.le_of_not_lt hlong⟩
    | timestamp s =>
      simp only [literalFault?, Option.ite_none_left_eq_some, Option.some.injEq] at h
      obtain ⟨hzone, rfl⟩ := h
      exact ⟨0, _, .self _, show n + 1 ≤ 0 + zoneLevels s by omega⟩
    | list items =>
      obtain ⟨x, hx, hfault⟩ := List.exists_of_findSome?_eq_some h
      obtain ⟨d, y, hpart, hat⟩ := hbelow hfault
      exact ⟨_, y, .item hx hpart, hat⟩
    | map entries =>
      obtain ⟨e, he, hfault⟩ := List.exists_of_findSome?_eq_some h
      rcases Option.or_eq_some_iff.mp hfault with hfault | ⟨-, hfault⟩
      · obtain ⟨d, y, hpart, hat⟩ := hbelow hfault
        exact ⟨_, y, .key he hpart, hat⟩
      · obtain ⟨d, y, hpart, hat⟩ := hbelow hfault
        exact ⟨_, y, .value he hpart, hat⟩
    | set items =>
      simp only [literalFault?, Option.ite_none_left_eq_some, List.isEmpty_iff] at h
      exact exists_part_set h.1 (ih h.2)
    | pair a b =>
      rcases Option.or_eq_some_iff.mp h with hfault | ⟨-, hfault⟩
      · obtain ⟨d, y, hpart, hat⟩ := hbelow hfault
        exact ⟨_, y, .first hpart, hat⟩
      · obtain ⟨d, y, hpart, hat⟩ := hbelow hfault
        exact ⟨_, y, .second hpart, hat⟩
    | _ => cases h

theorem exists_succ_of_literalFault? (h : literalFault? levels v = none) : ∃ n, levels = n + 1 := by
  cases levels with
  | zero => cases h
  | succ n => exact ⟨n, rfl⟩

theorem not_at_self (h : literalFault? levels v = none) : ¬ f.At levels 0 v := by
  obtain ⟨n, rfl⟩ := exists_succ_of_literalFault? h
  cases f with
  | tooDeep =>
    intro hdeep
    have hdeep : n + 1 ≤ 0 + v.zonesBelow := hdeep
    cases v with
    | timestamp s =>
      have hzone : zoneLevels s ≤ n := by simpa [literalFault?] using h
      have hdeep : n + 1 ≤ 0 + zoneLevels s := hdeep
      omega
    | _ => exact absurd hdeep (Nat.not_succ_le_zero n)
  | tooManyDigits =>
    rintro ⟨i, rfl, hlong⟩
    simp only [literalFault?, ite_eq_left_iff, reduceCtorEq, imp_false, Decidable.not_not] at h
    exact Nat.not_le_of_lt h hlong

theorem HasPart.not_at (hpart : v.HasPart d y) (h : literalFault? levels v = none) : ¬ f.At levels d y := by
  induction hpart generalizing levels with
  | self v => exact not_at_self h
  | item hx _ ih =>
    obtain ⟨n, rfl⟩ := exists_succ_of_literalFault? h
    exact mt ShowFault.at_succ_iff.mp (ih (List.findSome?_eq_none_iff.mp h _ hx))
  | @member items x _ _ hx _ ih =>
    obtain ⟨n, rfl⟩ := exists_succ_of_literalFault? h
    have hitems : literalFault? n (.list items) = none := by
      rw [literalFault?, if_neg (by simpa using List.ne_nil_of_mem hx)] at h
      exact h
    obtain ⟨n, rfl⟩ := exists_succ_of_literalFault? hitems
    have hnot := ih (List.findSome?_eq_none_iff.mp hitems x hx)
    exact mt (ShowFault.at_succ_iff.trans ShowFault.at_succ_iff).mp hnot
  | key he _ ih =>
    obtain ⟨n, rfl⟩ := exists_succ_of_literalFault? h
    have hentry := List.findSome?_eq_none_iff.mp h _ he
    exact mt ShowFault.at_succ_iff.mp (ih (Option.or_eq_none_iff.mp hentry).1)
  | value he _ ih =>
    obtain ⟨n, rfl⟩ := exists_succ_of_literalFault? h
    have hentry := List.findSome?_eq_none_iff.mp h _ he
    exact mt ShowFault.at_succ_iff.mp (ih (Option.or_eq_none_iff.mp hentry).2)
  | first _ ih =>
    obtain ⟨n, rfl⟩ := exists_succ_of_literalFault? h
    exact mt ShowFault.at_succ_iff.mp (ih (Option.or_eq_none_iff.mp h).1)
  | second _ ih =>
    obtain ⟨n, rfl⟩ := exists_succ_of_literalFault? h
    exact mt ShowFault.at_succ_iff.mp (ih (Option.or_eq_none_iff.mp h).2)

/-- Nothing keeps the value from being shown; texts, dates and times by themselves can always be. -/
def HasText (levels : Nat) : Value → Prop
  | text _ => True
  | points _ => True
  | date _ => True
  | timestamp _ => True
  | v => ∀ (d : Nat) (y : Value) (f : ShowFault), v.HasPart d y → ¬ f.At levels d y

theorem exists_part_of_displayFault? (h : displayFault? levels v = some f) :
    ∃ d y, v.HasPart d y ∧ f.At levels d y := by
  cases v
  case text => cases h
  case points => cases h
  case date => cases h
  case timestamp => cases h
  all_goals exact exists_part_of_literalFault? h

theorem literalFault?_eq_none_iff :
    literalFault? levels v = none ↔ ∀ d y (f : ShowFault), v.HasPart d y → ¬ f.At levels d y := by
  constructor
  · intro h d y f hpart
    exact hpart.not_at h
  · intro h
    rw [Option.eq_none_iff_forall_ne_some]
    intro f hf
    obtain ⟨d, y, hpart, hat⟩ := exists_part_of_literalFault? hf
    exact h d y f hpart hat

theorem displayFault?_eq_none_iff : displayFault? levels v = none ↔ v.HasText levels := by
  cases v
  case text => exact iff_of_true rfl trivial
  case points => exact iff_of_true rfl trivial
  case date => exact iff_of_true rfl trivial
  case timestamp => exact iff_of_true rfl trivial
  all_goals exact literalFault?_eq_none_iff

instance (levels : Nat) (v : Value) : Decidable (v.HasText levels) :=
  decidable_of_iff _ displayFault?_eq_none_iff

theorem shown_of_hasText (h : v.HasText levels) : v.shown levels = .ok v.display := by
  rw [shown, displayFault?_eq_none_iff.mpr h]

theorem exists_part_of_not_hasText (h : ¬ v.HasText levels) :
    ∃ f d y, v.shown levels = .error f ∧ v.HasPart d y ∧ f.At levels d y := by
  rw [← displayFault?_eq_none_iff, ← ne_eq, Option.ne_none_iff_exists'] at h
  obtain ⟨f, hf⟩ := h
  obtain ⟨d, y, hpart, hat⟩ := exists_part_of_displayFault? hf
  exact ⟨f, d, y, by rw [shown, hf], hpart, hat⟩

end EditorInsight.Value
