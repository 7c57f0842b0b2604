import Mathlib.Data.Finset.Insert
import Mathlib.Data.Fintype.Defs
import Mathlib.Data.List.Infix
import EditorInsight.Source.Header
import EditorInsight.Source.Parameters

/-!
# Balanced brackets

What the depth counters, the search for a closing parenthesis and the parenthesis balance of lines do on
a text that closes what it opens, said by how often each bracket occurs in the text and in its initial
parts. A text without a comma outside its brackets is one piece of a parameter list.
-/

namespace EditorInsight

open Text

inductive Bracket where
  | round
  | square
  | curly
  deriving DecidableEq

namespace Bracket

instance : Fintype Bracket := ⟨{round, square, curly}, fun k => by cases k <;> decide⟩

def opening : Bracket → Char
  | round => '('
  | square => '['
  | curly => '{'

def closing : Bracket → Char
  | round => ')'
  | square => ']'
  | curly => '}'

/-- The text closes no bracket of the kind that it did not open, and leaves none open. -/
def Balanced (k : Bracket) (t : Text) : Prop :=
  t.count k.closing = t.count k.opening ∧ ∀ p, p <+: t → p.count k.closing ≤ p.count k.opening

instance (k : Bracket) (t : Text) : Decidable (Balanced k t) :=
  decidable_of_iff (t.count k.closing = t.count k.opening ∧
    ∀ p ∈ t.inits, p.count k.closing ≤ p.count k.opening) (by simp [Balanced])

theorem balanced_of_not_mem {k : Bracket} {t : Text} (ho : k.opening ∉ t) (hc : k.closing ∉ t) :
    Balanced k t := by
  refine ⟨by rw [List.count_eq_zero_of_not_mem ho, List.count_eq_zero_of_not_mem hc], ?_⟩
  intro p hp
  rw [List.count_eq_zero_of_not_mem fun h => hc (hp.subset h)]
  exact Nat.zero_le _

theorem Balanced.append {k : Bracket} {x y : Text} (hx : Balanced k x) (hy : Balanced k y) :
    Balanced k (x ++ y) := by
  refine ⟨by rw [List.count_append, List.count_append, hx.1, hy.1], ?_⟩
  rintro p ⟨r, hr⟩
  rcases List.append_eq_append_iff.mp hr with ⟨q, rfl, -⟩ | ⟨q, rfl, rfl⟩
  · exact hx.2 p (List.prefix_append p q)
  · have hq := hy.2 q (List.prefix_append q r)
    rw [List.count_append, List.count_append, hx.1]
    omega

end Bracket

/-- Some bracket of the text is not closed in it. -/
def LeavesOpen (t : Text) : Prop := ∃ k : Bracket, t.count k.closing < t.count k.opening

instance (t : Text) : Decidable (LeavesOpen t) := inferInstanceAs (Decidable (∃ _, _))

/-- Every comma of the text stands inside a bracket. -/
def CommasEnclosed (t : Text) : Prop := ∀ p, p ++ [','] <+: t → LeavesOpen p

instance (t : Text) : Decidable (CommasEnclosed t) :=
  decidable_of_iff (∀ p ∈ t.inits, p ++ [','] <+: t → LeavesOpen p) <| by
    constructor
    · intro h p hp
      exact h p ((List.mem_inits p t).mpr ((List.prefix_append p [',']).trans hp)) hp
    · intro h p _ hp
      exact h p hp

namespace Nesting

def depth (d : Nesting) : Bracket → Nat
  | .round => d.paren
  | .square => d.bracket
  | .curly => d.brace

theorem depth_feed {d : Nesting} {k : Bracket} {c : Char}
    (h : [c].count k.closing ≤ d.depth k + [c].count k.opening) :
    (d.feed c).depth k + [c].count k.closing = d.depth k + [c].count k.opening := by
  unfold feed
  split <;> cases k <;> simp_all [depth, Bracket.opening, Bracket.closing]

/-- The open brackets cover those that the text closes. -/
def Covers (d : Nesting) (t : Text) : Prop :=
  ∀ k p, p <+: t → p.count k.closing ≤ d.depth k + p.count k.opening

theorem covers_of_balanced {t : Text} (h : ∀ k, Bracket.Balanced k t) (d : Nesting) : d.Covers t := by
  intro k p hp
  have := (h k).2 p hp
  omega

theorem Covers.depth_feed {d : Nesting} {c : Char} {t : Text} (h : d.Covers (c :: t)) (k : Bracket) :
    (d.feed c).depth k + [c].count k.closing = d.depth k + [c].count k.opening :=
  Nesting.depth_feed (h k [c] (by simp))

theorem Covers.feed {d : Nesting} {c : Char} {t : Text} (h : d.Covers (c :: t)) :
    (d.feed c).Covers t := by
  intro k p hp
  have hcons := h k (c :: p) (List.cons_prefix_cons.mpr ⟨rfl, hp⟩)
  rw [List.count_cons, List.count_cons] at hcons
  have hfeed := h.depth_feed k
  rw [List.count_singleton, List.count_singleton] at hfeed
  omega

theorem depth_foldl_feed {d : Nesting} {t : Text} (h : d.Covers t) (k : Bracket) :
    (t.foldl feed d).depth k + t.count k.closing = d.depth k + t.count k.opening := by
  induction t generalizing d with
  | nil => simp
  | cons c t ih =>
    have hstep := ih h.feed
    have hfeed := h.depth_feed k
    rw [List.count_singleton, List.count_singleton] at hfeed
    rw [List.foldl_cons, List.count_cons, List.count_cons]
    omega

theorem eq_of_depth {d e : Nesting} (h : ∀ k, d.depth k = e.depth k) : d = e := by
  have hround := h .round
  have hsquare := h .square
  have hcurly := h .curly
  cases d
  cases e
  simp_all [depth]

theorem foldl_feed_of_balanced {t : Text} (h : ∀ k, Bracket.Balanced k t) (d : Nesting) :
    t.foldl feed d = d := by
  refine eq_of_depth fun k => ?_
  have hfold := depth_foldl_feed (covers_of_balanced h d) k
  rw [(h k).1] at hfold
  omega

theorem isOuter_eq_false_iff {d : Nesting} : d.isOuter = false ↔ ∃ k, d.depth k ≠ 0 := by
  constructor
  · intro h
    by_contra hnone
    rw [not_exists] at hnone
    have hround := hnone .round
    have hsquare := hnone .square
    have hcurly := hnone .curly
    simp_all [isOuter, depth]
  · rintro ⟨k, hk⟩
    cases k <;> simp_all [isOuter, depth]

theorem countCommas_append (d : Nesting) (x y : Text) :
    d.countCommas (x ++ y) = d.countCommas x + (x.foldl feed d).countCommas y := by
  induction x generalizing d with
  | nil => simp [countCommas]
  | cons c x ih =>
    simp only [List.cons_append, countCommas, List.foldl_cons, ih (d.feed c), Nat.add_assoc]

theorem countCommas_eq_zero {d : Nesting} {t : Text} (hcovers : d.Covers t)
    (h : ∀ p, p ++ [','] <+: t → ∃ k : Bracket, p.count k.closing < d.depth k + p.count k.opening) :
    d.countCommas t = 0 := by
  induction t generalizing d with
  | nil => rfl
  | cons c t ih =>
    have hrest : (d.feed c).countCommas t = 0 := by
      refine ih hcovers.feed fun p hp => ?_
      obtain ⟨k, hk⟩ := h (c :: p) (List.cons_prefix_cons.mpr ⟨rfl, hp⟩)
      have hfeed := hcovers.depth_feed k
      rw [List.count_singleton, List.count_singleton] at hfeed
      rw [List.count_cons, List.count_cons] at hk
      exact ⟨k, by omega⟩
    rw [countCommas, hrest]
    by_cases hc : c = ','
    · subst hc
      obtain ⟨k, hk⟩ := h [] (by simp)
      have hfeed : d.feed ',' = d := rfl
      have hk : 0 < (d.feed ',').depth k := by simpa [hfeed] using hk
      have houter := isOuter_eq_false_iff.mpr ⟨k, Nat.ne_of_gt hk⟩
      simp [houter]
    · simp [hc]

theorem segments_append {d : Nesting} {x y s : Text} {ss : List Text} (hx : d.countCommas x = 0)
    (hy : segments [','] (x.foldl feed d) y = s :: ss) :
    segments [','] d (x ++ y) = (x ++ s) :: ss := by
  induction x generalizing d with
  | nil => exact hy
  | cons c x ih =>
    simp only [countCommas, Nat.add_eq_zero_iff] at hx
    obtain ⟨hc, hx⟩ := hx
    rw [List.foldl_cons] at hy
    have hcut : ¬ (([c] = [','] && (d.feed c).isOuter) = true) := by simpa using hc
    simp only [List.cons_append, segments]
    rw [if_neg hcut, ih hx hy]

end Nesting

/-- The text is one piece of a list: it closes what it opens, and its commas stand inside brackets. -/
structure IsPiece (t : Text) : Prop where
  balanced : ∀ k, Bracket.Balanced k t
  commasEnclosed : CommasEnclosed t

instance (t : Text) : Decidable (IsPiece t) :=
  decidable_of_iff ((∀ k, Bracket.Balanced k t) ∧ CommasEnclosed t)
    ⟨fun h => ⟨h.1, h.2⟩, fun h => ⟨h.1, h.2⟩⟩

namespace IsPiece

theorem countCommas_eq_zero {t : Text} (h : IsPiece t) : Nesting.countCommas {} t = 0 := by
  refine Nesting.countCommas_eq_zero (Nesting.covers_of_balanced h.balanced {}) fun p hp => ?_
  obtain ⟨k, hk⟩ := h.commasEnclosed p hp
  exact ⟨k, Nat.lt_of_lt_of_le hk (Nat.le_add_left _ _)⟩

theorem of_blanks {b : Text} (hb : ∀ c ∈ b, isBlank c = true) : IsPiece b := by
  have hnot {c : Char} (hc : isBlank c = false) : c ∉ b := fun hmem => by simp [hb c hmem] at hc
  refine ⟨fun k => ?_, fun p hp => ?_⟩
  · cases k <;> exact Bracket.balanced_of_not_mem (hnot (by decide)) (hnot (by decide))
  · have hcomma : ',' ∈ b := hp.subset (by simp)
    exact absurd hcomma (hnot (by decide))

theorem append {x y : Text} (hx : IsPiece x) (hy : IsPiece y) : IsPiece (x ++ y) := by
  refine ⟨fun k => (hx.balanced k).append (hy.balanced k), ?_⟩
  rintro p ⟨r, hr⟩
  rw [List.append_assoc] at hr
  rcases List.append_eq_append_iff.mp hr with ⟨q, rfl, hq⟩ | ⟨q, rfl, rfl⟩
  · cases q with
    | nil =>
      obtain ⟨k, hk⟩ := hy.commasEnclosed [] ⟨r, hq⟩
      simp at hk
    | cons c q =>
      obtain ⟨rfl, rfl⟩ := List.cons.inj hq
      exact hx.commasEnclosed p ⟨q, by simp⟩
  · obtain ⟨k, hk⟩ := hy.commasEnclosed q ⟨r, by simp⟩
    refine ⟨k, ?_⟩
    rw [List.count_append, List.count_append, (hx.balanced k).1]
    omega

theorem segments_append {x y s : Text} {ss : List Text} (hx : IsPiece x)
    (hy : Nesting.segments [','] {} y = s :: ss) :
    Nesting.segments [','] {} (x ++ y) = (x ++ s) :: ss := by
  refine Nesting.segments_append hx.countCommas_eq_zero ?_
  rw [Nesting.foldl_feed_of_balanced hx.balanced]
  exact hy

theorem splitTopLevel_eq {x : Text} (hx : IsPiece x) :
    splitTopLevel x = [trim x].filter (· ≠ []) := by
  have hnil : Nesting.segments [','] {} [] = [[]] := rfl
  have hsegments := hx.segments_append hnil
  rw [List.append_nil] at hsegments
  rw [splitTopLevel, hsegments]
  rfl

theorem splitTopLevel_append_comma {x : Text} (hx : IsPiece x) (y : Text) :
    splitTopLevel (x ++ ',' :: y) = [trim x].filter (· ≠ []) ++ splitTopLevel y := by
  have hcomma : Nesting.segments [','] {} (',' :: y) = [] :: Nesting.segments [','] {} y := rfl
  rw [splitTopLevel, hx.segments_append hcomma, List.append_nil, List.map_cons, ← List.singleton_append,
    List.filter_append]
  rfl

end IsPiece

/-! Parentheses. -/

/-- The search for a closing parenthesis passes over a text that closes no more than is open. -/
theorem beforeClosing?_append {depth : Nat} {x : Text}
    (hx : ∀ p, p <+: x → p.count ')' ≤ depth + p.count '(') (y : Text) :
    beforeClosing? depth (x ++ y) =
      (beforeClosing? (depth + x.count '(' - x.count ')') y).map (x ++ ·) := by
  induction x generalizing depth with
  | nil => simp
  | cons c x ih =>
    have hcons (p : Text) (hp : p <+: x) :
        p.count ')' + [c].count ')' ≤ depth + (p.count '(' + [c].count '(') := by
      have := hx (c :: p) (List.cons_prefix_cons.mpr ⟨rfl, hp⟩)
      rwa [List.count_cons, List.count_cons, ← List.count_singleton, ← List.count_singleton] at this
    have hmap (o : Option Text) : (o.map (x ++ ·)).map (c :: ·) = o.map (c :: x ++ ·) := by
      rw [Option.map_map]
      rfl
    rw [List.count_cons, List.count_cons, ← List.count_singleton, ← List.count_singleton, ← hmap,
      List.cons_append]
    -- The first character opens, closes or does neither, and the rest starts at that depth.
    by_cases hopen : c = '('
    · subst hopen
      have hx' (p : Text) (hp : p <+: x) : p.count ')' ≤ depth + 1 + p.count '(' := by
        have := hcons p hp
        simp at this
        omega
      have hdepth : depth + 1 + x.count '(' - x.count ')' =
          depth + (x.count '(' + ['('].count '(') - (x.count ')' + ['('].count ')') := by
        simp
        omega
      rw [beforeClosing?, ih hx', hdepth]
    · by_cases hclose : c = ')'
      · subst hclose
        obtain ⟨e, rfl⟩ : ∃ e, depth = e + 1 := by
          have := hcons [] List.nil_prefix
          exact ⟨depth - 1, by simp at this; omega⟩
        have hx' (p : Text) (hp : p <+: x) : p.count ')' ≤ e + p.count '(' := by
          have := hcons p hp
          simp at this
          omega
        have hdepth : e + x.count '(' - x.count ')' =
            e + 1 + (x.count '(' + [')'].count '(') - (x.count ')' + [')'].count ')') := by
          simp
          omega
        rw [beforeClosing?, ih hx', hdepth]
      · have hx' (p : Text) (hp : p <+: x) : p.count ')' ≤ depth + p.count '(' := by
          simpa [hopen, hclose] using hcons p hp
        rw [beforeClosing?, ih hx']
        · simp [hopen, hclose]
        · exact hopen
        · exact fun _ h => hclose h
        · exact fun _ _ h => hclose h

/-- The parenthesis after a balanced text closes the one before it. -/
theorem beforeClosing?_balanced {x : Text} (hx : Bracket.Balanced .round x) (y : Text) :
    beforeClosing? 0 (x ++ ')' :: y) = some x := by
  have hclose : x.count ')' = x.count '(' := hx.1
  rw [beforeClosing?_append fun p hp => by rw [Nat.zero_add]; exact hx.2 p hp]
  simp [hclose, beforeClosing?]

theorem parameterText?_append {x t : Text} (hx : '(' ∉ x) (ht : Bracket.Balanced .round t) (y : Text) :
    parameterText? (x ++ '(' :: (t ++ ')' :: y)) = some t := by
  have hfront : ∀ c ∈ x, (c != '(') = true := by
    intro c hc
    rw [bne_iff_ne]
    rintro rfl
    exact hx hc
  rw [parameterText?, List.dropWhile_append_of_pos hfront]
  simp [beforeClosing?_balanced ht]

namespace Header

theorem balance_eq (depth : Int) (t : Text) :
    balance depth t = depth + t.count '(' - t.count ')' := by
  unfold balance
  induction t generalizing depth with
  | nil => simp
  | cons c t ih =>
    rw [List.foldl_cons, ih, List.count_cons, List.count_cons]
    by_cases hopen : c = '('
    · subst hopen
      simp
      omega
    · by_cases hclose : c = ')'
      · subst hclose
        simp
        omega
      · simp [hopen, hclose]

end Header
end EditorInsight
