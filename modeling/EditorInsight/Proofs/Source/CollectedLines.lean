import EditorInsight.Proofs.Source.Brackets
import EditorInsight.Proofs.Text.Blank

/-!
# The lines that are collected to a header

The lines from the start of a definition are joined until their parentheses balance and the joined text has the end of
a header in it. The collection is a search for the smallest number of lines with this property, within the budget.
Whether a number of lines has the property depends on these lines only, so neither the lines before and behind them
nor a larger budget make a difference to what is collected.
-/

namespace EditorInsight

open Text

namespace Header

/-! The end of a header. -/

theorem resultText?_append {u : Text} (hne : u ≠ []) (hu : ':' ∉ u) (v : Text) :
    resultText? ('-' :: '>' :: (u ++ ':' :: v)) = some u := by
  have hall : ∀ c ∈ u, (c != ':') = true := by
    intro c hc
    rw [bne_iff_ne]
    rintro rfl
    exact hu hc
  have hspan : (u ++ ':' :: v).span (· != ':') = (u, ':' :: v) := by
    rw [List.span_eq_takeWhile_dropWhile, List.takeWhile_append_of_pos hall,
      List.dropWhile_append_of_pos hall]
    simp
  rw [resultText?, hspan]
  cases u with
  | nil => exact absurd rfl hne
  | cons c u => rfl

theorem resultText?_eq_some_iff {t a : Text} : resultText? t = some a ↔
    a ≠ [] ∧ ':' ∉ a ∧ ∃ v, t = '-' :: '>' :: (a ++ ':' :: v) := by
  constructor
  · intro h
    unfold resultText? at h
    split at h
    · rename_i r
      rw [List.span_eq_takeWhile_dropWhile] at h
      have hcolon : ':' ∉ r.takeWhile (· != ':') := by
        intro hmem
        have hne := List.mem_takeWhile_imp hmem
        simp at hne
      have hrest := List.head?_dropWhile_not (· != ':') r
      have hr : r = r.takeWhile (· != ':') ++ r.dropWhile (· != ':') :=
        List.takeWhile_append_dropWhile.symm
      generalize r.takeWhile (· != ':') = w at *
      generalize r.dropWhile (· != ':') = d at *
      cases w with
      | nil => simp at h
      | cons e w =>
        cases d with
        | nil => simp at h
        | cons f v =>
          obtain rfl : e :: w = a := by simpa using h
          obtain rfl : f = ':' := by simpa using hrest
          exact ⟨by simp, hcolon, v, by rw [hr]⟩
    · simp at h
  · rintro ⟨hne, hcolon, v, rfl⟩
    exact resultText?_append hne hcolon v

theorem isComplete_append {t : Text} (h : endsHeader t = true) (x : Text) :
    isComplete (x ++ ')' :: t) = true := by
  induction x with
  | nil => simp [isComplete, h]
  | cons c x ih => simp [isComplete, ih]

theorem isComplete_iff_exists {t : Text} :
    isComplete t = true ↔ ∃ x y, t = x ++ ')' :: y ∧ endsHeader y = true := by
  constructor
  · intro h
    induction t with
    | nil => cases h
    | cons c t ih =>
      rw [isComplete, Bool.or_eq_true, Bool.and_eq_true, decide_eq_true_eq] at h
      rcases h with ⟨rfl, hend⟩ | h
      · exact ⟨[], t, rfl, hend⟩
      · obtain ⟨x, y, rfl, hend⟩ := ih h
        exact ⟨c :: x, y, rfl, hend⟩
  · rintro ⟨x, y, rfl, hend⟩
    exact isComplete_append hend x

theorem endsHeader_iff {t : Text} : endsHeader t = true ↔
    (∃ v, t = ':' :: v) ∨ ∃ b r v, (∀ c ∈ b, isBlank c = true) ∧ r ≠ [] ∧ ':' ∉ r ∧
      t = b ++ '-' :: '>' :: (r ++ ':' :: v) := by
  constructor
  · intro h
    unfold endsHeader at h
    split at h
    · rename_i v
      exact .inl ⟨v, rfl⟩
    · obtain ⟨r, hr⟩ := Option.isSome_iff_exists.mp h
      obtain ⟨hne, hcolon, v, hv⟩ := resultText?_eq_some_iff.mp hr
      obtain ⟨b, hb, ht⟩ := exists_blanks_trimLeft t
      rw [hv] at ht
      exact .inr ⟨b, r, v, hb, hne, hcolon, ht⟩
  · rintro (⟨v, rfl⟩ | ⟨b, r, v, hb, hne, hcolon, rfl⟩)
    · rfl
    · unfold endsHeader
      split
      · rfl
      · rw [trimLeft_blanks_append hb, trimLeft_cons (by decide), resultText?_append hne hcolon]
        rfl

/-- The text has the end of a header in it: a closing parenthesis and a colon, or a closing parenthesis, an arrow, a
result without a colon, and a colon. Blanks may stand before and behind the arrow. -/
def HasEnd (t : Text) : Prop :=
  ("):" : Text) <:+: t ∨
    ∃ b b' r : Text, (∀ c ∈ b, isBlank c = true) ∧ (∀ c ∈ b', isBlank c = true) ∧ r ≠ [] ∧ ':' ∉ r ∧
      ')' :: (b ++ '-' :: '>' :: (b' ++ (r ++ [':']))) <:+: t

theorem isComplete_iff_hasEnd {t : Text} : isComplete t = true ↔ HasEnd t := by
  rw [isComplete_iff_exists, HasEnd]
  simp only [endsHeader_iff]
  constructor
  · rintro ⟨x, y, rfl, ⟨v, rfl⟩ | ⟨b, r, v, hb, hne, hcolon, rfl⟩⟩
    · exact .inl ⟨x, v, by simp⟩
    · exact .inr ⟨b, [], r, hb, nofun, hne, hcolon, x, v, by simp⟩
  · rintro (⟨x, v, rfl⟩ | ⟨b, b', r, hb, hb', hne, hcolon, x, v, rfl⟩)
    · exact ⟨x, ':' :: v, by simp, .inl ⟨v, rfl⟩⟩
    · -- blanks behind the arrow count as a part of the result
      have hcolon' : ':' ∉ b' ++ r := by
        rw [List.mem_append, not_or]
        exact ⟨fun hmem => by simpa [isBlank] using hb' ':' hmem, hcolon⟩
      refine ⟨x, b ++ '-' :: '>' :: (b' ++ r ++ ':' :: v), by simp, .inr ⟨b, b' ++ r, v, hb, ?_, hcolon', rfl⟩⟩
      exact List.append_ne_nil_of_right_ne_nil b' hne

/-! Collecting lines. -/

def joinLine (joined : Option Text) (line : Text) : Text :=
  match joined with
  | none => trim line
  | some t => t ++ [' '] ++ trim line

theorem join_joinLine (joined : Option Text) (line : Text) (r : List Text) :
    join [' '] (joinLine joined line :: r) = join [' '] (joined.toList ++ trim line :: r) := by
  cases joined with
  | none => rfl
  | some t => cases r <;> simp [joinLine, join]

theorem collectFrom_cons (joined : Option Text) (used : Nat) (depth budget : Int) (line : Text)
    (rest : List Text) :
    collectFrom joined used depth budget (line :: rest) =
      if balance depth line = 0 && isComplete (joinLine joined line) then
        some ⟨joinLine joined line, used + 1⟩
      else if budget ≤ 1 then none
      else collectFrom (some (joinLine joined line)) (used + 1) (balance depth line) (budget - 1)
        rest := by
  cases joined <;> rfl

theorem balance_append (depth : Int) (x y : Text) :
    balance depth (x ++ y) = balance (balance depth x) y := by
  rw [balance_eq, balance_eq, balance_eq, List.count_append, List.count_append]
  push_cast
  omega

def joinedText (joined : Option Text) (lines : List Text) (n : Nat) : Text :=
  join [' '] (joined.toList ++ (lines.take n).map trim)

/-- With the first `n` lines the parentheses balance and the header is complete. -/
def StopsAfter (joined : Option Text) (depth : Int) (lines : List Text) (n : Nat) : Prop :=
  balance depth (lines.take n).flatten = 0 ∧ isComplete (joinedText joined lines n) = true

theorem stopsAfter_congr (joined : Option Text) (depth : Int) {lines lines' : List Text} {m n : Nat}
    (h : lines'.take n = lines.take n) (hm : m ≤ n) :
    StopsAfter joined depth lines' m ↔ StopsAfter joined depth lines m := by
  have htake : lines'.take m = lines.take m := by
    rw [← Nat.min_eq_left hm, ← List.take_take, h, List.take_take]
  rw [StopsAfter, StopsAfter, joinedText, joinedText, htake]

section Cons

variable (joined : Option Text) (depth : Int) (line : Text) (rest : List Text) (n : Nat)

theorem joinedText_cons :
    joinedText joined (line :: rest) (n + 1) = joinedText (some (joinLine joined line)) rest n := by
  rw [joinedText, joinedText, List.take_succ_cons, List.map_cons, ← join_joinLine]
  rfl

theorem joinedText_one : joinedText joined (line :: rest) 1 = joinLine joined line :=
  joinedText_cons joined line rest 0

theorem stopsAfter_cons : StopsAfter joined depth (line :: rest) (n + 1) ↔
    StopsAfter (some (joinLine joined line)) (balance depth line) rest n := by
  rw [StopsAfter, StopsAfter, joinedText_cons, List.take_succ_cons, List.flatten_cons, balance_append]

theorem stopsAfter_one : StopsAfter joined depth (line :: rest) 1 ↔
    (balance depth line = 0 && isComplete (joinLine joined line)) = true := by
  rw [stopsAfter_cons, Bool.and_eq_true, decide_eq_true_eq]
  rfl

end Cons

/-- Lines are collected up to the first after which the collection can stop. One line is always taken, and more only
within the budget. -/
theorem collectFrom_eq_some_iff {joined : Option Text} {used : Nat} {depth budget : Int} {lines : List Text}
    {c : CollectedHeader} : collectFrom joined used depth budget lines = some c ↔
      ∃ n, n < lines.length ∧ (n = 0 ∨ n < budget) ∧ StopsAfter joined depth lines (n + 1) ∧
        (∀ m < n, ¬ StopsAfter joined depth lines (m + 1)) ∧
        c = ⟨joinedText joined lines (n + 1), used + (n + 1)⟩ := by
  induction lines generalizing joined used depth budget with
  | nil => simp [collectFrom]
  | cons line rest ih =>
    rw [collectFrom_cons]
    by_cases hstop : StopsAfter joined depth (line :: rest) 1
    · rw [if_pos ((stopsAfter_one ..).mp hstop)]
      constructor
      · intro h
        refine ⟨0, by simp, .inl rfl, hstop, nofun, ?_⟩
        rw [← Option.some.inj h, joinedText_one]
      · rintro ⟨n, -, -, -, hfirst, rfl⟩
        cases n with
        | zero => rw [joinedText_one]
        | succ n => exact absurd hstop (hfirst 0 (Nat.succ_pos n))
    · rw [if_neg (mt (stopsAfter_one ..).mpr hstop)]
      split
      · rename_i hbudget
        refine ⟨nofun, ?_⟩
        rintro ⟨n, -, hn, hlast, -⟩
        rcases hn with rfl | hn
        · exact absurd hlast hstop
        · obtain rfl : n = 0 := by omega
          exact absurd hlast hstop
      · rename_i hbudget
        rw [ih]
        constructor
        · rintro ⟨n, hlength, hn, hlast, hfirst, rfl⟩
          refine ⟨n + 1, by simpa using hlength, .inr (by omega), (stopsAfter_cons ..).mpr hlast, ?_, ?_⟩
          · intro m hm
            cases m with
            | zero => exact hstop
            | succ m => exact mt (stopsAfter_cons ..).mp (hfirst m (Nat.lt_of_succ_lt_succ hm))
          · rw [joinedText_cons, Nat.add_right_comm used 1, Nat.add_assoc used]
        · rintro ⟨n, hlength, hn, hlast, hfirst, rfl⟩
          cases n with
          | zero => exact absurd hlast hstop
          | succ n =>
            refine ⟨n, by simpa using hlength, .inr (by omega), (stopsAfter_cons ..).mp hlast, ?_, ?_⟩
            · intro m hm
              exact mt (stopsAfter_cons ..).mpr (hfirst (m + 1) (Nat.succ_lt_succ hm))
            · rw [joinedText_cons, Nat.add_right_comm used 1, Nat.add_assoc used]

/-- The first `n` of the lines make a header: they have as many opening as closing parentheses, and the end of a header
is in them when they are trimmed and joined by spaces. -/
structure ClosedBy (lines : List Text) (n : Nat) : Prop where
  balanced : (lines.take n).flatten.count '(' = (lines.take n).flatten.count ')'
  hasEnd : HasEnd (join [' '] ((lines.take n).map trim))

theorem stopsAfter_iff_closedBy {lines : List Text} {n : Nat} : StopsAfter none 0 lines n ↔ ClosedBy lines n := by
  have hbalance : balance 0 (lines.take n).flatten = 0 ↔
      (lines.take n).flatten.count '(' = (lines.take n).flatten.count ')' := by
    rw [balance_eq]
    omega
  rw [StopsAfter, hbalance, isComplete_iff_hasEnd]
  exact ⟨fun h => ⟨h.1, h.2⟩, fun h => ⟨h.balanced, h.hasEnd⟩⟩

theorem not_closedBy_zero (lines : List Text) : ¬ ClosedBy lines 0 := by
  intro h
  have hcomplete := isComplete_iff_hasEnd.mpr h.hasEnd
  cases hcomplete

theorem closedBy_congr {lines lines' : List Text} {m n : Nat} (h : lines'.take n = lines.take n) (hm : m ≤ n) :
    ClosedBy lines' m ↔ ClosedBy lines m := by
  rw [← stopsAfter_iff_closedBy, ← stopsAfter_iff_closedBy, stopsAfter_congr none 0 h hm]

/-- The collected lines are the first of the lines, as few of them as make a header. -/
structure Shortest (maxLines : Int) (lines : List Text) (c : CollectedHeader) : Prop where
  one_le : 1 ≤ c.lineCount
  le_budget : c.lineCount ≤ maxLines
  le_length : c.lineCount ≤ lines.length
  text_eq : c.text = join [' '] ((lines.take c.lineCount).map trim)
  closedBy : ClosedBy lines c.lineCount
  first : ∀ m < c.lineCount, ¬ ClosedBy lines m

theorem collectFrom_eq_some_iff_shortest {maxLines : Int} (hmax : 1 ≤ maxLines) {lines : List Text}
    {c : CollectedHeader} : collectFrom none 0 0 maxLines lines = some c ↔ Shortest maxLines lines c := by
  rw [collectFrom_eq_some_iff]
  simp only [stopsAfter_iff_closedBy, Nat.zero_add]
  constructor
  · rintro ⟨n, hlength, hbudget, hclosed, hfirst, rfl⟩
    refine ⟨Nat.succ_pos n, ?_, hlength, rfl, hclosed, fun m hm => ?_⟩
    · simp only
      omega
    · cases m with
      | zero => exact not_closedBy_zero lines
      | succ m => exact hfirst m (Nat.lt_of_succ_lt_succ hm)
  · obtain ⟨text, n⟩ := c
    rintro ⟨hpos, hbudget, hlength, htext, hclosed, hfirst⟩
    simp only at hpos hbudget hlength htext hclosed hfirst
    obtain ⟨n, rfl⟩ := Nat.exists_eq_add_of_le' hpos
    refine ⟨n, hlength, .inr (by omega), hclosed, fun m hm => hfirst (m + 1) (Nat.succ_lt_succ hm), ?_⟩
    rw [htext]
    rfl

theorem collectAt?_eq_some_iff {maxLines index : Int} (hmax : 1 ≤ maxLines) {lines : List Text}
    {c : CollectedHeader} : collectAt? maxLines lines index = some c ↔
      0 ≤ index ∧ (∃ line, lines[index.toNat]? = some line ∧ isStart line = true) ∧
        Shortest maxLines (lines.drop index.toNat) c := by
  rw [collectAt?, ← List.head?_drop]
  by_cases hindex : index < 0
  · rw [if_pos hindex]
    refine ⟨nofun, fun h => ?_⟩
    omega
  · rw [if_neg hindex, and_iff_right (by omega)]
    cases lines.drop index.toNat with
    | nil => simp [collect?]
    | cons line rest =>
      rw [collect?]
      by_cases hstart : isStart line = true
      · rw [if_pos hstart, collectFrom_eq_some_iff_shortest hmax, and_iff_right ⟨line, rfl, hstart⟩]
      · rw [if_neg hstart]
        refine ⟨nofun, ?_⟩
        rintro ⟨⟨line', hline, hstart'⟩, -⟩
        obtain rfl := Option.some.inj hline
        exact absurd hstart' hstart

/-- Other lines and another budget give the same, if the lines taken are among them and within the budget. -/
theorem Shortest.congr {maxLines maxLines' : Int} {lines lines' : List Text} {c : CollectedHeader}
    (h : Shortest maxLines lines c) (hmax : c.lineCount ≤ maxLines')
    (htake : lines'.take c.lineCount = lines.take c.lineCount) : Shortest maxLines' lines' c := by
  have hlength := congrArg List.length htake
  rw [List.length_take, List.length_take, Nat.min_eq_left h.le_length] at hlength
  refine ⟨h.one_le, hmax, by omega, ?_, (closedBy_congr htake (Nat.le_refl _)).mpr h.closedBy, fun m hm => ?_⟩
  · rw [h.text_eq, htake]
  · exact mt (closedBy_congr htake (Nat.le_of_lt hm)).mp (h.first m hm)

/-- Where a number of lines within the budget makes a header, the smallest such number is collected. -/
theorem exists_shortest {maxLines : Int} {lines : List Text} {n : Nat} (hmax : n ≤ maxLines)
    (hlength : n ≤ lines.length) (h : ClosedBy lines n) : ∃ c, Shortest maxLines lines c := by
  induction n using Nat.strong_induction_on with
  | _ n ih =>
    by_cases hsmaller : ∃ m < n, ClosedBy lines m
    · obtain ⟨m, hm, hclosed⟩ := hsmaller
      exact ih m hm (by omega) (by omega) hclosed
    · have hpos : n ≠ 0 := by
        rintro rfl
        exact not_closedBy_zero lines h
      exact ⟨⟨join [' '] ((lines.take n).map trim), n⟩, Nat.pos_of_ne_zero hpos, hmax, hlength, rfl, h,
        fun m hm hclosed => hsmaller ⟨m, hm, hclosed⟩⟩

/-- What is collected are the first of the lines from the index on that make a header, trimmed and joined by spaces, and
no smaller number of them does. Any budget and any lines in which they stand, at whatever index, give the same. If
nothing is collected from a line that starts a definition, no number of lines within the budget makes a header. -/
theorem collectAt?_shortest {maxLines : Int} (hmax : 1 ≤ maxLines) (lines : List Text) (index : Int) :
    (∀ text n, collectAt? maxLines lines index = some ⟨text, n⟩ →
      1 ≤ n ∧ n ≤ maxLines ∧ 0 ≤ index ∧ index + n ≤ lines.length ∧
      text = join [' '] (((lines.drop index.toNat).take n).map trim) ∧
      ClosedBy (lines.drop index.toNat) n ∧ (∀ m < n, ¬ ClosedBy (lines.drop index.toNat) m) ∧
      ∀ (maxLines' index' : Int) (lines' : List Text), n ≤ maxLines' → 0 ≤ index' →
        (lines'.drop index'.toNat).take n = (lines.drop index.toNat).take n →
        collectAt? maxLines' lines' index' = some ⟨text, n⟩) ∧
    (collectAt? maxLines lines index = none → ∀ line, 0 ≤ index → lines[index.toNat]? = some line →
      isStart line = true → ∀ n : Nat, n ≤ maxLines → index + n ≤ lines.length →
      ¬ ClosedBy (lines.drop index.toNat) n) := by
  constructor
  · intro text n h
    obtain ⟨hindex, ⟨line, hline, hstart⟩, hshortest⟩ := (collectAt?_eq_some_iff hmax).mp h
    have hpos : 1 ≤ n := hshortest.one_le
    have hlength : n ≤ (lines.drop index.toNat).length := hshortest.le_length
    rw [List.length_drop] at hlength
    refine ⟨hpos, hshortest.le_budget, hindex, by omega, hshortest.text_eq, hshortest.closedBy, hshortest.first, ?_⟩
    intro maxLines' index' lines' hmax' hindex' htake
    have hline' : lines'[index'.toNat]? = some line := by
      have hhead := congrArg List.head? htake
      rwa [List.head?_take, List.head?_take, if_neg (by omega), if_neg (by omega), List.head?_drop, List.head?_drop,
        hline] at hhead
    exact (collectAt?_eq_some_iff (by omega)).mpr
      ⟨hindex', ⟨line, hline', hstart⟩, hshortest.congr hmax' htake⟩
  · intro hnone line hindex hline hstart n hn hlength hclosed
    obtain ⟨c, hc⟩ := exists_shortest hn (by rw [List.length_drop]; omega) hclosed
    have hsome := (collectAt?_eq_some_iff hmax).mpr ⟨hindex, ⟨line, hline, hstart⟩, hc⟩
    rw [hnone] at hsome
    cases hsome

theorem collectAt?_shortest_within_budget :
    let lines : List Text := ["import x", "def f(a,", "  b)", "  -> int:", "    pass"]
    let others : List Text := ["def f(a,", "  b)", "  -> int:", "((("]
    let c : CollectedHeader := ⟨"def f(a, b) -> int:", 3⟩
    collectAt? 3 lines 1 = some c ∧ ClosedBy (lines.drop 1) 3 ∧ (∀ m < 3, ¬ ClosedBy (lines.drop 1) m) ∧
      collectAt? 7 others 0 = some c ∧
      collectAt? 2 lines 1 = none ∧ isStart "def f(a," = true ∧ ¬ ClosedBy (lines.drop 1) 2 := by
  intro lines others c
  have hcollect : collectAt? 3 lines 1 = some c := by decide +kernel
  have hnone : collectAt? 2 lines 1 = none := by decide +kernel
  have hstart : isStart "def f(a," = true := by decide +kernel
  obtain ⟨-, -, -, -, -, hclosed, hfirst, hsame⟩ := (collectAt?_shortest (by decide) lines 1).1 c.text 3 hcollect
  have hopen := (collectAt?_shortest (by decide) lines 1).2 hnone "def f(a," (by decide) rfl hstart 2 (by decide)
    (by decide)
  exact ⟨hcollect, hclosed, hfirst, hsame 7 0 others (by decide) (by decide) (by decide +kernel), hnone, hstart, hopen⟩

end Header
end EditorInsight
