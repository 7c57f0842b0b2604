import EditorInsight.Proofs.Source.TopLevelPieces

/-!
# Texts with paired brackets

A text with paired brackets is built from characters that are no brackets, from pairs of one kind around such a text,
and by putting such texts one after the other. How it is built says where its pairs are. In such a text each counter
gives the number of pairs of its kind that are open, so cutting at top-level commas cuts between the pairs, and the
search for a closing parenthesis passes over the text.
-/

namespace EditorInsight

open Text

namespace Bracket

def IsOther (c : Char) : Prop := ∀ k : Bracket, c ≠ k.opening ∧ c ≠ k.closing

instance (c : Char) : Decidable (IsOther c) := inferInstanceAs (Decidable (∀ _, _))

theorem isOther_of_isBlank {c : Char} (h : isBlank c = true) : IsOther c := by
  intro k
  cases k <;> constructor <;> rintro rfl <;> cases h

theorem opening_inj {j k : Bracket} : j.opening = k.opening ↔ j = k := by
  cases j <;> cases k <;> decide

theorem closing_inj {j k : Bracket} : j.closing = k.closing ↔ j = k := by
  cases j <;> cases k <;> decide

theorem opening_ne_closing (j k : Bracket) : j.opening ≠ k.closing := by
  cases j <;> cases k <;> decide

theorem opening_ne_comma (k : Bracket) : k.opening ≠ ',' := by
  cases k <;> decide

end Bracket

theorem Nesting.countCommas_eq_countP (d : Nesting) (t : Text) : d.countCommas t =
    (List.range t.length).countP fun i =>
      t[i]? = some ',' ∧ ((t.take (i + 1)).foldl feed d).isOuter = true := by
  induction t generalizing d with
  | nil => rfl
  | cons c t ih =>
    rw [countCommas, ih, List.length_cons, List.range_succ_eq_map, List.countP_cons, List.countP_map, Nat.add_comm]
    congr 1
    simp

/-- A pair of brackets, with the positions of both. -/
structure BracketPair where
  kind : Bracket
  opened : Nat
  closed : Nat
  deriving DecidableEq

namespace BracketPair

/-- Of the first `n` characters the opening bracket is one, and the closing bracket is not. -/
def IsOpenAfter (q : BracketPair) (n : Nat) : Prop := q.opened < n ∧ n ≤ q.closed

instance (q : BracketPair) (n : Nat) : Decidable (q.IsOpenAfter n) := inferInstanceAs (Decidable (_ ∧ _))

def Encloses (q : BracketPair) (i : Nat) : Prop := q.opened < i ∧ i < q.closed

instance (q : BracketPair) (i : Nat) : Decidable (q.Encloses i) := inferInstanceAs (Decidable (_ ∧ _))

def shift (n : Nat) (q : BracketPair) : BracketPair := ⟨q.kind, q.opened + n, q.closed + n⟩

theorem isOpenAfter_shift {n m : Nat} {q : BracketPair} : (q.shift n).IsOpenAfter m ↔ q.IsOpenAfter (m - n) := by
  simp only [IsOpenAfter, shift]
  omega

end BracketPair

/-- A text with paired brackets, as it is built. -/
inductive Bracketed where
  | empty
  | plain (c : Char) (h : Bracket.IsOther c)
  | pair (k : Bracket) (inner : Bracketed)
  | append (x y : Bracketed)

namespace Bracketed

def text : Bracketed → Text
  | empty => []
  | plain c _ => [c]
  | pair k t => k.opening :: (t.text ++ [k.closing])
  | append x y => x.text ++ y.text

def pairs : Bracketed → List BracketPair
  | empty => []
  | plain _ _ => []
  | pair k t => ⟨k, 0, t.text.length + 1⟩ :: t.pairs.map (·.shift 1)
  | append x y => x.pairs ++ y.pairs.map (·.shift x.text.length)

theorem getElem?_append_of_some {t : Text} {i : Nat} {c : Char} (h : t[i]? = some c) (u : Text) :
    (t ++ u)[i]? = some c := by
  rw [List.getElem?_append_left (List.getElem?_eq_some_iff.mp h).1]
  exact h

theorem getElem?_of_mem_pairs {t : Bracketed} {q : BracketPair} (h : q ∈ t.pairs) :
    t.text[q.opened]? = some q.kind.opening ∧ t.text[q.closed]? = some q.kind.closing := by
  induction t generalizing q with
  | empty => cases h
  | plain => cases h
  | pair k t ih =>
    rcases List.mem_cons.mp h with rfl | h
    · simp [text]
    · obtain ⟨r, hr, rfl⟩ := List.mem_map.mp h
      obtain ⟨hopened, hclosed⟩ := ih hr
      simp only [text, BracketPair.shift, List.getElem?_cons_succ]
      exact ⟨getElem?_append_of_some hopened _, getElem?_append_of_some hclosed _⟩
  | append x y ihx ihy =>
    rcases List.mem_append.mp h with h | h
    · obtain ⟨hopened, hclosed⟩ := ihx h
      exact ⟨getElem?_append_of_some hopened _, getElem?_append_of_some hclosed _⟩
    · obtain ⟨r, hr, rfl⟩ := List.mem_map.mp h
      rw [text, BracketPair.shift, List.getElem?_append_right (Nat.le_add_left _ _),
        List.getElem?_append_right (Nat.le_add_left _ _), Nat.add_sub_cancel, Nat.add_sub_cancel]
      exact ihy hr

/-! The counters. -/

/-- The number of pairs of a kind that are open after `n` characters. -/
def openPairs (t : Bracketed) (k : Bracket) (n : Nat) : Nat :=
  t.pairs.countP fun q => q.kind = k ∧ q.IsOpenAfter n

theorem countP_shift (qs : List BracketPair) (k : Bracket) (n m : Nat) :
    (qs.map (·.shift n)).countP (fun q => q.kind = k ∧ q.IsOpenAfter m) =
      qs.countP fun q => q.kind = k ∧ q.IsOpenAfter (m - n) := by
  rw [List.countP_map]
  refine List.countP_congr fun q _ => ?_
  simp only [Function.comp_apply, decide_eq_true_eq, BracketPair.isOpenAfter_shift]
  rfl

theorem openPairs_pair (j k : Bracket) (t : Bracketed) (n : Nat) :
    (pair j t).openPairs k (n + 1) = (if j = k ∧ n ≤ t.text.length then 1 else 0) + t.openPairs k n := by
  rw [openPairs, pairs, List.countP_cons, countP_shift, Nat.add_comm, Nat.add_sub_cancel, openPairs]
  simp [BracketPair.IsOpenAfter]

/-- What is opened in an initial part of the text is closed there, apart from the open pairs. -/
theorem count_take (t : Bracketed) (k : Bracket) (n : Nat) :
    (t.text.take n).count k.opening = (t.text.take n).count k.closing + t.openPairs k n := by
  induction t generalizing n with
  | empty => simp [text, openPairs, pairs]
  | plain c h =>
    cases n with
    | zero => simp [openPairs, pairs]
    | succ n => simp [text, openPairs, pairs, (h k).1, (h k).2]
  | pair j t ih =>
    cases n with
    | zero => simp [openPairs, BracketPair.IsOpenAfter]
    | succ n =>
      have hinner := ih n
      rw [openPairs_pair, text, List.take_succ_cons, List.take_append, List.count_cons, List.count_cons,
        List.count_append, List.count_append]
      have hopening := Bracket.opening_ne_closing j k
      have hclosing := (Bracket.opening_ne_closing k j).symm
      rcases Nat.lt_or_ge t.text.length n with h | h
      · -- the closing bracket is reached
        rw [List.take_of_length_le (l := [j.closing]) (by simp; omega), List.count_singleton, List.count_singleton]
        simp only [beq_iff_eq, hopening, hclosing, Bracket.opening_inj, Bracket.closing_inj, Nat.not_le.mpr h,
          and_false, if_false]
        omega
      · rw [Nat.sub_eq_zero_of_le h, List.take_zero, List.count_nil, List.count_nil]
        simp only [beq_iff_eq, hopening, Bracket.opening_inj, h, and_true, if_false]
        omega
  | append x y ihx ihy =>
    have hx := ihx n
    have hy := ihy (n - x.text.length)
    rw [openPairs] at hx hy
    rw [text, List.take_append, List.count_append, List.count_append, openPairs, pairs, List.countP_append,
      countP_shift]
    omega

theorem count_opening {t : Bracketed} {p : Text} (hp : p <+: t.text) (k : Bracket) :
    p.count k.opening = p.count k.closing + t.openPairs k p.length := by
  have hcount := t.count_take k p.length
  rwa [← List.prefix_iff_eq_take.mp hp] at hcount

theorem balanced_text (t : Bracketed) (k : Bracket) : Bracket.Balanced k t.text := by
  have hclosed : t.openPairs k t.text.length = 0 := by
    refine List.countP_eq_zero.mpr fun q hq => ?_
    have hlt := (List.getElem?_eq_some_iff.mp (getElem?_of_mem_pairs hq).2).1
    rw [decide_eq_true_eq]
    rintro ⟨-, -, hle⟩
    omega
  refine ⟨?_, fun p hp => ?_⟩
  · rw [count_opening List.prefix_rfl, hclosed, Nat.add_zero]
  · rw [count_opening hp]
    exact Nat.le_add_right _ _

/-- Each counter gives the number of pairs of its kind that are open. -/
theorem depth_ofText {t : Bracketed} {p : Text} (hp : p <+: t.text) (k : Bracket) :
    (Nesting.ofText p).depth k = t.openPairs k p.length := by
  have hcovers : Nesting.Covers {} p := by
    intro k r hr
    exact Nat.le_trans ((t.balanced_text k).2 r (hr.trans hp)) (Nat.le_add_left _ _)
  have hdepth := Nesting.depth_foldl_feed hcovers k
  have hcount := count_opening hp k
  have hstart : Nesting.depth {} k = 0 := by cases k <;> rfl
  rw [Nesting.ofText]
  omega

theorem isOuter_ofText_iff {t : Bracketed} {p : Text} (hp : p <+: t.text) :
    (Nesting.ofText p).isOuter = true ↔ ∀ q ∈ t.pairs, ¬ q.IsOpenAfter p.length := by
  rw [← Bool.not_eq_false, Nesting.isOuter_eq_false_iff, not_exists]
  simp only [ne_eq, not_not, depth_ofText hp, openPairs, List.countP_eq_zero, decide_eq_true_eq, not_and]
  exact ⟨fun h q hq => h q.kind q hq rfl, fun h k q hq _ => h q hq⟩

/-! Commas and pieces. -/

theorem topLevelCommas_text (t : Bracketed) : topLevelCommas t.text =
    (List.range t.text.length).countP fun i => t.text[i]? = some ',' ∧ ∀ q ∈ t.pairs, ¬ q.Encloses i := by
  rw [topLevelCommas, Nesting.countCommas_eq_countP]
  refine List.countP_congr fun i hi => ?_
  rw [decide_eq_true_eq, decide_eq_true_eq]
  refine and_congr_right fun hcomma => ?_
  have hlength : (t.text.take (i + 1)).length = i + 1 := List.length_take_of_le (List.mem_range.mp hi)
  have houter := isOuter_ofText_iff ⟨_, List.take_append_drop (i + 1) t.text⟩
  rw [Nesting.ofText, hlength] at houter
  rw [houter]
  refine forall₂_congr fun q hq => not_congr ?_
  -- the comma is not the opening bracket itself
  have hne : q.opened ≠ i := by
    rintro rfl
    have hopened := (getElem?_of_mem_pairs hq).1
    rw [hcomma] at hopened
    exact q.kind.opening_ne_comma (Option.some.inj hopened).symm
  simp only [BracketPair.IsOpenAfter, BracketPair.Encloses]
  omega

theorem isPiece_pair (k : Bracket) (t : Bracketed) : IsPiece (pair k t).text := by
  refine ⟨(pair k t).balanced_text, fun p hp => ⟨k, ?_⟩⟩
  have hbefore : p <+: (pair k t).text := (List.prefix_append p [',']).trans hp
  have hlength : p.length + 1 ≤ t.text.length + 1 + 1 := by simpa [text] using hp.length_le
  cases p with
  | nil =>
    obtain ⟨r, hr⟩ := hp
    exact absurd (List.cons.inj hr).1.symm k.opening_ne_comma
  | cons c p =>
    rw [List.length_cons] at hlength
    rw [count_opening hbefore, List.length_cons, openPairs_pair, if_pos ⟨rfl, by omega⟩]
    omega

theorem exists_segments (t : Bracketed) : ∃ us : List Bracketed, Nesting.segments [','] {} t.text = us.map text := by
  induction t with
  | empty => exact ⟨[empty], rfl⟩
  | plain c h =>
    by_cases hc : c = ','
    · subst hc
      exact ⟨[empty, empty], rfl⟩
    · have hpiece := Nesting.segments_append (d := {}) (x := [c]) (y := [])
        (Nesting.countCommas_of_not_mem (by simpa using Ne.symm hc) {}) rfl
      exact ⟨[plain c h], hpiece⟩
  | pair k t _ =>
    have hpiece := (isPiece_pair k t).segments_append (y := []) rfl
    exact ⟨[pair k t], by simpa using hpiece⟩
  | append x y ihx ihy =>
    obtain ⟨us, hus⟩ := ihx
    obtain ⟨vs, hvs⟩ := ihy
    -- the last segment of the first text and the first segment of the second make one
    rcases List.eq_nil_or_concat us with rfl | ⟨init, last, rfl⟩
    · exact absurd hus (Nesting.segments_ne_nil {} x.text)
    · cases vs with
      | nil => exact absurd hvs (Nesting.segments_ne_nil {} y.text)
      | cons first others =>
        rw [List.concat_eq_append, List.map_append, List.map_singleton] at hus
        rw [← Nesting.foldl_feed_of_balanced x.balanced_text {}] at hvs
        have happend := Nesting.segments_append_segments hus hvs
        exact ⟨init ++ append last first :: others, by simpa [text] using happend⟩

theorem exists_text_erase {c : Char} (hc : Bracket.IsOther c) {t : Bracketed} {u v : Text}
    (h : t.text = u ++ c :: v) : ∃ s : Bracketed, s.text = u ++ v := by
  induction t generalizing u v with
  | empty => simp [text] at h
  | plain d hd =>
    cases u with
    | nil =>
      obtain ⟨-, rfl⟩ := List.cons.inj h
      exact ⟨empty, rfl⟩
    | cons e u =>
      obtain ⟨-, hrest⟩ := List.cons.inj h
      simp at hrest
  | pair k t ih =>
    cases u with
    | nil => exact absurd (List.cons.inj h).1.symm (hc k).1
    | cons d u =>
      obtain ⟨rfl, hrest⟩ := List.cons.inj h
      obtain ⟨w, ht, rfl⟩ := exists_append_of_not_mem_right (by simpa using (hc k).2) hrest
      obtain ⟨s, hs⟩ := ih ht
      exact ⟨pair k s, by simp [text, hs]⟩
  | append x y ihx ihy =>
    rcases List.append_eq_append_iff.mp h with ⟨w, rfl, hy⟩ | ⟨w, hx, hw⟩
    · obtain ⟨s, hs⟩ := ihy hy
      exact ⟨append x s, by simp [text, hs]⟩
    · cases w with
      | nil =>
        obtain ⟨s, hs⟩ := ihy (u := []) hw.symm
        exact ⟨append x s, by simp [text, hs, hx]⟩
      | cons d w =>
        obtain ⟨rfl, rfl⟩ := List.cons.inj hw
        obtain ⟨s, hs⟩ := ihx hx
        exact ⟨append s y, by simp [text, hs]⟩

theorem exists_text_of_blanks {b : Text} (hb : ∀ c ∈ b, isBlank c = true) {t : Bracketed} {u v : Text}
    (h : t.text = u ++ (b ++ v)) : ∃ s : Bracketed, s.text = u ++ v := by
  induction b generalizing t with
  | nil => exact ⟨t, h⟩
  | cons c b ih =>
    obtain ⟨hc, hb⟩ := List.forall_mem_cons.mp hb
    obtain ⟨s, hs⟩ := exists_text_erase (Bracket.isOther_of_isBlank hc) h
    exact ih hb hs

theorem exists_text_trim (t : Bracketed) : ∃ s : Bracketed, s.text = trim t.text := by
  obtain ⟨b, b', hb, hb', ht⟩ := exists_blanks_trim t.text
  rw [List.append_assoc] at ht
  obtain ⟨s, hs⟩ := exists_text_of_blanks hb (u := []) ht
  rw [List.nil_append] at hs
  obtain ⟨r, hr⟩ := exists_text_of_blanks hb' (u := trim t.text) (v := []) (by rwa [List.append_nil])
  exact ⟨r, by rw [hr, List.append_nil]⟩

/-- In a text with paired brackets, whatever its beginning that has been read, each counter gives the number of
pairs of its kind that are open there, so no counter is above zero exactly outside all pairs. The commas that are
counted are those outside all pairs, the pieces are texts with paired brackets, and the text between the first
parenthesis of a signature and the one behind the text is split like the text. -/
theorem counters_follow_pairs (t : Bracketed) :
    (∀ p, p <+: t.text →
      (∀ k, (Nesting.ofText p).depth k = t.pairs.countP fun q => q.kind = k ∧ q.IsOpenAfter p.length) ∧
      ((Nesting.ofText p).isOuter = true ↔ ∀ q ∈ t.pairs, ¬ q.IsOpenAfter p.length)) ∧
    topLevelCommas t.text = (List.range t.text.length).countP (fun i =>
      t.text[i]? = some ',' ∧ ∀ q ∈ t.pairs, ¬ q.Encloses i) ∧
    (∀ s ∈ splitTopLevel t.text, ∃ u : Bracketed, u.text = s) ∧
    ∀ x y : Text, '(' ∉ x → parameterLabels (x ++ '(' :: (t.text ++ ')' :: y)) = splitTopLevel t.text := by
  refine ⟨fun p hp => ⟨depth_ofText hp, isOuter_ofText_iff hp⟩, t.topLevelCommas_text, ?_, ?_⟩
  · intro s hs
    obtain ⟨us, hus⟩ := t.exists_segments
    rw [splitTopLevel, hus, List.map_map] at hs
    obtain ⟨u, -, rfl⟩ := List.mem_map.mp (List.mem_filter.mp hs).1
    exact u.exists_text_trim
  · intro x y hx
    rw [parameterLabels, parameterText?_append hx (t.balanced_text .round)]
    exact splitTopLevel_trim t.text

theorem counters_follow_pairs_nested :
    ∃ t : Bracketed, t.text = "a(,[]),b" ∧ t.pairs = [⟨.round, 1, 5⟩, ⟨.square, 3, 4⟩] ∧ "a(,[" <+: t.text ∧
      (Nesting.ofText "a(,[").depth .square = 1 ∧ (Nesting.ofText "a(,[").isOuter = false ∧
      topLevelCommas t.text = 1 ∧ (∀ s ∈ splitTopLevel t.text, ∃ u : Bracketed, u.text = s) ∧
      '(' ∉ ("f" : Text) ∧ parameterLabels ("f" ++ '(' :: (t.text ++ ')' :: "(c)")) = splitTopLevel t.text := by
  obtain ⟨t, htext, hpairs⟩ : ∃ t : Bracketed, t.text = "a(,[]),b" ∧ t.pairs = [⟨.round, 1, 5⟩, ⟨.square, 3, 4⟩] :=
    ⟨append (append (plain 'a' (by decide)) (pair .round (append (plain ',' (by decide)) (pair .square empty))))
      (append (plain ',' (by decide)) (plain 'b' (by decide))), by decide, by decide⟩
  have hbegins : "a(,[" <+: t.text := by
    rw [htext]
    decide
  obtain ⟨hcounters, hcommas, hpieces, hlabels⟩ := t.counters_follow_pairs
  obtain ⟨hdepth, houter⟩ := hcounters _ hbegins
  rw [hpairs] at hdepth houter hcommas
  refine ⟨t, htext, hpairs, hbegins, ?_, ?_, ?_, hpieces, by decide, hlabels _ _ (by decide)⟩
  · rw [hdepth]
    decide
  · rw [← Bool.not_eq_true, houter]
    decide
  · rw [hcommas, htext]
    decide

end Bracketed
end EditorInsight
