import EditorInsight.Proofs.Source.Brackets
import EditorInsight.Proofs.Text.Blank

/-!
# Cutting a text at its top-level commas

The commas outside all brackets cut a text into segments. At such a comma no bracket is open, so each segment starts
with the counters at zero and can be read on its own, however unbalanced the text is. Trimming changes no counter,
and therefore the trimmed segments, joined by commas, are cut in the same places again.
-/

namespace EditorInsight

open Text

namespace Nesting

theorem eq_empty_of_isOuter {d : Nesting} (h : d.isOuter = true) : d = {} := by
  simp only [isOuter, Bool.and_eq_true, beq_iff_eq] at h
  obtain ⟨⟨hparen, hbracket⟩, hbrace⟩ := h
  cases d
  simp_all

theorem countCommas_of_not_mem {t : Text} (h : ',' ∉ t) (d : Nesting) : d.countCommas t = 0 := by
  induction t generalizing d with
  | nil => rfl
  | cons c t ih =>
    obtain ⟨hc, ht⟩ := not_or.mp (mt List.mem_cons.mpr h)
    simp [countCommas, Ne.symm hc, ih ht]

theorem segments_ne_nil (d : Nesting) (t : Text) : segments [','] d t ≠ [] := by
  cases t with
  | nil => simp [segments]
  | cons c t =>
    simp only [segments]
    split
    · simp
    · split <;> simp

/-- A character is the comma that ends the first segment, which is only so where no bracket is open, or it belongs to
the first segment. -/
theorem segments_cons_cases (d : Nesting) (c : Char) (t : Text) :
    (c = ',' ∧ d = {} ∧ segments [','] d (c :: t) = [] :: segments [','] {} t) ∨
    ((∀ x, d.countCommas (c :: x) = (d.feed c).countCommas x) ∧
      ∃ s ss, segments [','] (d.feed c) t = s :: ss ∧ segments [','] d (c :: t) = (c :: s) :: ss) := by
  by_cases hcuts : c = ',' ∧ (d.feed c).isOuter = true
  · obtain ⟨rfl, houter⟩ := hcuts
    obtain rfl : d = {} := eq_empty_of_isOuter houter
    exact .inl ⟨rfl, rfl, rfl⟩
  · refine .inr ⟨fun x => by simp [countCommas, hcuts], ?_⟩
    obtain ⟨s, ss, hrest⟩ := List.exists_cons_of_ne_nil (segments_ne_nil (d.feed c) t)
    exact ⟨s, ss, hrest, by simp [segments, hcuts, hrest]⟩

theorem segments_append_segments {d : Nesting} {x y last s : Text} {init ss : List Text}
    (hx : segments [','] d x = init ++ [last]) (hy : segments [','] (x.foldl feed d) y = s :: ss) :
    segments [','] d (x ++ y) = init ++ (last ++ s) :: ss := by
  induction x generalizing d init last with
  | nil =>
    obtain ⟨rfl, rfl⟩ : init = [] ∧ last = [] := by
      cases init <;> simp_all [segments]
    exact hy
  | cons c x ih =>
    rw [List.foldl_cons] at hy
    simp only [List.cons_append, segments] at hx ⊢
    by_cases hcut : ([c] = [','] && (d.feed c).isOuter) = true
    · rw [if_pos hcut] at hx ⊢
      cases init with
      | nil => exact absurd (List.cons.inj hx).2 (segments_ne_nil _ _)
      | cons first init =>
        obtain ⟨rfl, hrest⟩ := List.cons.inj hx
        rw [ih hrest hy]
        rfl
    · rw [if_neg hcut] at hx ⊢
      obtain ⟨first, others, hrest⟩ := List.exists_cons_of_ne_nil (segments_ne_nil (d.feed c) x)
      rw [hrest] at hx
      cases init with
      | nil =>
        obtain ⟨rfl, rfl⟩ := List.cons.inj hx
        rw [ih (show segments [','] (d.feed c) x = [] ++ [first] from hrest) hy]
        rfl
      | cons _ init =>
        obtain ⟨rfl, rfl⟩ := List.cons.inj hx
        rw [ih (show segments [','] (d.feed c) x = (first :: init) ++ [last] from hrest) hy]
        rfl

theorem length_segments (d : Nesting) (t : Text) :
    (segments [','] d t).length = d.countCommas t + 1 := by
  induction t generalizing d with
  | nil => rfl
  | cons c t ih =>
    rcases segments_cons_cases d c t with ⟨rfl, rfl, hsegments⟩ | ⟨hcount, s, ss, hrest, hsegments⟩
    · have hcomma : countCommas {} (',' :: t) = 1 + countCommas {} t := rfl
      rw [hsegments, List.length_cons, ih, hcomma, Nat.add_comm 1]
    · rw [hsegments, hcount, ← ih, hrest, List.length_cons, List.length_cons]

theorem join_segments (d : Nesting) (t : Text) : join [','] (segments [','] d t) = t := by
  induction t generalizing d with
  | nil => rfl
  | cons c t ih =>
    rcases segments_cons_cases d c t with ⟨rfl, rfl, hsegments⟩ | ⟨-, s, ss, hrest, hsegments⟩
    · obtain ⟨s, ss, hrest⟩ := List.exists_cons_of_ne_nil (segments_ne_nil {} t)
      rw [hsegments, hrest, join, ← hrest, ih]
      rfl
    · have hjoin := ih (d.feed c)
      rw [hrest] at hjoin
      rw [hsegments, ← hjoin]
      cases ss <;> simp [join]

/-- Texts that can stand between commas: none has a comma outside its brackets, and where a comma follows, no bracket
is open. -/
structure AreSegments (raw : List Text) : Prop where
  commas : ∀ s ∈ raw, topLevelCommas s = 0
  closed : ∀ s ∈ raw.dropLast, ofText s = {}

theorem areSegments_cons {s : Text} {ss : List Text} :
    AreSegments (s :: ss) ↔ topLevelCommas s = 0 ∧ (ss ≠ [] → ofText s = {}) ∧ AreSegments ss := by
  constructor
  · rintro ⟨hcommas, hclosed⟩
    cases ss with
    | nil => exact ⟨hcommas s (by simp), fun h => absurd rfl h, by simp, by simp⟩
    | cons u ss =>
      rw [List.dropLast_cons_cons] at hclosed
      exact ⟨hcommas s (by simp), fun _ => hclosed s (by simp), fun x hx => hcommas x (by simp [hx]),
        fun x hx => hclosed x (by simp [hx])⟩
  · rintro ⟨hs, hclosed, hss⟩
    refine ⟨List.forall_mem_cons.mpr ⟨hs, hss.commas⟩, ?_⟩
    cases ss with
    | nil => simp
    | cons u ss =>
      rw [List.dropLast_cons_cons]
      exact List.forall_mem_cons.mpr ⟨hclosed (by simp), hss.closed⟩

/-- The first segment goes on from the brackets that are open before it, and the others stand on their own. -/
theorem segments_spec {d : Nesting} {t s : Text} {ss : List Text} (h : segments [','] d t = s :: ss) :
    d.countCommas s = 0 ∧ (ss ≠ [] → s.foldl feed d = {}) ∧ AreSegments ss := by
  induction t generalizing d s ss with
  | nil =>
    obtain ⟨rfl, rfl⟩ := List.cons.inj h
    exact ⟨rfl, fun h => absurd rfl h, by simp, by simp⟩
  | cons c t ih =>
    rcases segments_cons_cases d c t with ⟨rfl, rfl, hsegments⟩ | ⟨hcount, s', ss', hrest, hsegments⟩
    · obtain ⟨rfl, rfl⟩ := List.cons.inj (hsegments.symm.trans h)
      obtain ⟨s, ss, hrest⟩ := List.exists_cons_of_ne_nil (segments_ne_nil {} t)
      refine ⟨rfl, fun _ => rfl, ?_⟩
      rw [hrest]
      exact areSegments_cons.mpr (ih hrest)
    · obtain ⟨rfl, rfl⟩ := List.cons.inj (hsegments.symm.trans h)
      obtain ⟨hcommas, hclosed, hss⟩ := ih hrest
      exact ⟨(hcount s').trans hcommas, hclosed, hss⟩

theorem areSegments_segments (t : Text) : AreSegments (segments [','] {} t) := by
  obtain ⟨s, ss, hsegments⟩ := List.exists_cons_of_ne_nil (segments_ne_nil {} t)
  rw [hsegments]
  exact areSegments_cons.mpr (segments_spec hsegments)

/-- Segments that are joined by commas are cut there again. -/
theorem AreSegments.segments_join {raw : List Text} (h : AreSegments raw) (hne : raw ≠ []) :
    segments [','] {} (join [','] raw) = raw := by
  induction raw with
  | nil => exact absurd rfl hne
  | cons s ss ih =>
    obtain ⟨hcommas, hclosed, hss⟩ := areSegments_cons.mp h
    cases ss with
    | nil =>
      have hlast := segments_append (y := []) hcommas rfl
      simpa [join] using hlast
    | cons u ss =>
      have hnext : segments [','] (s.foldl feed {}) (',' :: join [','] (u :: ss)) = [] :: u :: ss := by
        rw [show s.foldl feed {} = {} from hclosed (by simp), ← ih hss (by simp)]
        simp [segments, feed, isOuter, ih hss (by simp)]
      rw [join, List.append_assoc, List.singleton_append, segments_append hcommas hnext, List.append_nil]

/-! Trimmed segments. -/

theorem foldl_feed_blanks {b : Text} (hb : ∀ c ∈ b, isBlank c = true) (d : Nesting) : b.foldl feed d = d :=
  foldl_feed_of_balanced (IsPiece.of_blanks hb).balanced d

theorem countCommas_blanks {b : Text} (hb : ∀ c ∈ b, isBlank c = true) (d : Nesting) : d.countCommas b = 0 := by
  apply countCommas_of_not_mem
  intro hmem
  have hblank := hb ',' hmem
  simp [isBlank] at hblank

theorem ofText_trim (t : Text) : ofText (trim t) = ofText t := by
  obtain ⟨b, b', hb, hb', ht⟩ := exists_blanks_trim t
  conv_rhs => rw [ht]
  simp only [ofText, List.foldl_append, foldl_feed_blanks hb, foldl_feed_blanks hb']

theorem topLevelCommas_trim (t : Text) : topLevelCommas (trim t) = topLevelCommas t := by
  obtain ⟨b, b', hb, hb', ht⟩ := exists_blanks_trim t
  conv_rhs => rw [ht]
  simp only [topLevelCommas, countCommas_append, foldl_feed_blanks hb, countCommas_blanks hb,
    countCommas_blanks hb', Nat.zero_add, Nat.add_zero]

theorem AreSegments.trimmed {raw : List Text} (h : AreSegments raw) : AreSegments (raw.map trim) := by
  constructor
  · intro p hp
    obtain ⟨s, hs, rfl⟩ := List.mem_map.mp hp
    rw [topLevelCommas_trim, h.commas s hs]
  · intro p hp
    rw [← List.map_dropLast] at hp
    obtain ⟨s, hs, rfl⟩ := List.mem_map.mp hp
    rw [ofText_trim, h.closed s hs]

theorem AreSegments.filtered {raw : List Text} (h : AreSegments raw) (keep : Text → Bool) :
    AreSegments (raw.filter keep) := by
  induction raw with
  | nil => exact h
  | cons s ss ih =>
    obtain ⟨hcommas, hclosed, hss⟩ := areSegments_cons.mp h
    by_cases hkeep : keep s = true
    · rw [List.filter_cons_of_pos hkeep, areSegments_cons]
      refine ⟨hcommas, fun hrest => hclosed ?_, ih hss⟩
      rintro rfl
      exact hrest rfl
    · rw [List.filter_cons_of_neg hkeep]
      exact ih hss

end Nesting

theorem splitTopLevel_blanks_append {b : Text} (hb : ∀ c ∈ b, isBlank c = true) (t : Text) :
    splitTopLevel (b ++ t) = splitTopLevel t := by
  obtain ⟨s, ss, hs⟩ := List.exists_cons_of_ne_nil (Nesting.segments_ne_nil {} t)
  have hsegments : Nesting.segments [','] {} (b ++ t) = (b ++ s) :: ss := by
    refine Nesting.segments_append (Nesting.countCommas_blanks hb {}) ?_
    rw [Nesting.foldl_feed_blanks hb, hs]
  rw [splitTopLevel, splitTopLevel, hsegments, hs, List.map_cons, List.map_cons, trim_blanks_append hb]

theorem splitTopLevel_append_blanks {b : Text} (hb : ∀ c ∈ b, isBlank c = true) (t : Text) :
    splitTopLevel (t ++ b) = splitTopLevel t := by
  obtain ⟨init, last, ht⟩ :=
    (List.eq_nil_or_concat (Nesting.segments [','] {} t)).resolve_left (Nesting.segments_ne_nil {} t)
  rw [List.concat_eq_append] at ht
  have hblanks (d : Nesting) : Nesting.segments [','] d b = [b] := by
    have hsegments := Nesting.segments_append (y := []) (Nesting.countCommas_blanks hb d) rfl
    rwa [List.append_nil] at hsegments
  rw [splitTopLevel, splitTopLevel, Nesting.segments_append_segments ht (hblanks _), ht, List.map_append,
    List.map_append, List.map_singleton, List.map_singleton, trim_append_blanks hb]

theorem splitTopLevel_trim (t : Text) : splitTopLevel (trim t) = splitTopLevel t := by
  obtain ⟨b, b', hb, hb', ht⟩ := exists_blanks_trim t
  calc splitTopLevel (trim t) = splitTopLevel (b ++ trim t) := (splitTopLevel_blanks_append hb _).symm
    _ = splitTopLevel (b ++ trim t ++ b') := (splitTopLevel_append_blanks hb' _).symm
    _ = splitTopLevel t := by rw [← ht]

/-- A text is the segments between its top-level commas, joined by commas. Splitting trims these segments and drops the
blank ones; no piece has a top-level comma, and the pieces joined by commas are split into the same pieces. -/
theorem exists_segments_splitTopLevel (t : Text) :
    ∃ raw : List Text, t = join [','] raw ∧ raw.length = topLevelCommas t + 1 ∧
      (∀ s ∈ raw, topLevelCommas s = 0) ∧ splitTopLevel t = (raw.map trim).filter (· ≠ []) ∧
      (∀ p ∈ splitTopLevel t, topLevelCommas p = 0) ∧
      splitTopLevel (join [','] (splitTopLevel t)) = splitTopLevel t := by
  have hraw := Nesting.areSegments_segments t
  have hpieces : Nesting.AreSegments (splitTopLevel t) := hraw.trimmed.filtered _
  refine ⟨_, (Nesting.join_segments {} t).symm, Nesting.length_segments {} t, hraw.commas, rfl, hpieces.commas, ?_⟩
  by_cases hne : splitTopLevel t = []
  · rw [hne]
    rfl
  · have hagain : ∀ p ∈ splitTopLevel t, trim p = p ∧ p ≠ [] := by
      intro p hp
      obtain ⟨hmem, hkept⟩ := List.mem_filter.mp hp
      obtain ⟨s, -, rfl⟩ := List.mem_map.mp hmem
      exact ⟨trim_trim s, by simpa using hkept⟩
    conv_lhs => rw [splitTopLevel, hpieces.segments_join hne]
    rw [List.map_congr_left fun p hp => (hagain p hp).1, List.map_id', List.filter_eq_self]
    intro p hp
    simpa using (hagain p hp).2

example : splitTopLevel " a], , f(x, y" = [("a]" : Text), "f(x, y"] := by decide

end EditorInsight
