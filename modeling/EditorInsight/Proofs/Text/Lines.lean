import EditorInsight.Proofs.Text.Blank

/-!
# Laws of lines and words

How a text is put together from its lines, and its words, which are the runs between blanks. Line ends
are blank, so the words of a text are those of its lines. Normalizing blanks keeps the words and puts
one space between them; so it does not matter to a normalized text where its lines end.
-/

namespace EditorInsight.Text

/-! Lines. -/

inductive SplitsInto : Text → List Text → Prop
  | last {l : Text} (h : '\n' ∉ l) : SplitsInto l [l]
  | line {l sep t : Text} {lines : List Text} (h : '\n' ∉ l)
      (hsep : sep = ['\n'] ∨ sep = ['\r', '\n']) (ht : SplitsInto t lines) :
      SplitsInto (l ++ (sep ++ t)) (l :: lines)

theorem SplitsInto.cons {c : Char} (hc : c ≠ '\n') {t line : Text} {lines : List Text}
    (h : SplitsInto t (line :: lines)) : SplitsInto (c :: t) ((c :: line) :: lines) := by
  cases h with
  | last h => exact .last (by simp [Ne.symm hc, h])
  | line h hsep ht => exact .line (l := c :: line) (by simp [Ne.symm hc, h]) hsep ht

theorem splitLines_ne_nil (t : Text) : splitLines t ≠ [] := by
  unfold splitLines
  split <;> try simp
  split <;> simp

theorem splitsInto_splitLines (t : Text) : SplitsInto t (splitLines t) := by
  fun_induction splitLines t with
  | case1 => exact .last (by simp)
  | case2 r ih => exact .line (l := []) (by simp) (Or.inr rfl) ih
  | case3 r ih => exact .line (l := []) (by simp) (Or.inl rfl) ih
  | case4 c r _ _ hnil => exact absurd hnil (splitLines_ne_nil r)
  | case5 c r _ hc s ss hr ih => exact (hr ▸ ih).cons fun h => hc h

theorem splitLines_cons {c : Char} {r first : Text} {others : List Text} (hc : c ≠ '\n')
    (hcr : c = '\r' → r.head? ≠ some '\n') (hr : splitLines r = first :: others) :
    splitLines (c :: r) = (c :: first) :: others := by
  rw [splitLines, hr]
  · rintro r' rfl rfl
    exact hcr rfl rfl
  · exact hc

theorem splitLines_append_left {x r first : Text} {others : List Text} (hx : '\n' ∉ x)
    (hlast : x.getLast? ≠ some '\r') (hr : splitLines r = first :: others) :
    splitLines (x ++ r) = (x ++ first) :: others := by
  induction x with
  | nil => exact hr
  | cons c x ih =>
    rw [List.mem_cons, not_or] at hx
    obtain ⟨hc, hx⟩ := hx
    cases x with
    | nil => exact splitLines_cons (Ne.symm hc) (fun h => absurd (by simp [h]) hlast) hr
    | cons d x =>
      have hd : '\n' ≠ d := List.ne_of_not_mem_cons hx
      exact splitLines_cons (Ne.symm hc) (fun _ => by simpa using Ne.symm hd)
        (ih hx (by simpa using hlast))

theorem exists_splitLines_append_right {z : Text} (hz : '\n' ∉ z) (x : Text) :
    ∃ init last, splitLines x = init ++ [last] ∧ splitLines (x ++ z) = init ++ [last ++ z] := by
  fun_induction splitLines x with
  | case1 =>
    refine ⟨[], [], rfl, ?_⟩
    induction z with
    | nil => rfl
    | cons c z ih =>
      rw [List.mem_cons, not_or] at hz
      obtain ⟨hc, hz⟩ := hz
      refine splitLines_cons (Ne.symm hc) ?_ (ih hz)
      intro _ hhead
      exact hz (List.mem_of_mem_head? hhead)
  | case2 r ih =>
    obtain ⟨init, last, hr, hrz⟩ := ih
    exact ⟨[] :: init, last, by simp [hr], by simp [splitLines, hrz]⟩
  | case3 r ih =>
    obtain ⟨init, last, hr, hrz⟩ := ih
    exact ⟨[] :: init, last, by simp [hr], by simp [splitLines, hrz]⟩
  | case4 c r _ _ hnil => exact absurd hnil (splitLines_ne_nil r)
  | case5 c r hcr hc s ss hr ih =>
    obtain ⟨init, last, hinit, hrz⟩ := ih
    -- A carriage return right before a line feed would be one line end with it.
    have hcr' : c = '\r' → (r ++ z).head? ≠ some '\n' := by
      rintro rfl hhead
      cases r with
      | nil => exact hz (List.mem_of_mem_head? hhead)
      | cons d r =>
        obtain rfl : d = '\n' := by simpa using hhead
        exact hcr r rfl rfl
    cases init with
    | nil =>
      obtain ⟨rfl, rfl⟩ : s = last ∧ ss = [] := by simpa [hr] using hinit
      exact ⟨[], c :: s, rfl, splitLines_cons hc hcr' hrz⟩
    | cons i init =>
      obtain ⟨rfl, rfl⟩ : s = i ∧ ss = init ++ [last] := by simpa [hr] using hinit
      exact ⟨(c :: s) :: init, last, rfl, splitLines_cons hc hcr' hrz⟩

/-- Some first lines of a text hold the same characters, line ends apart, as what stands before the line
end after them. -/
theorem SplitsInto.exists_count_take {t : Text} {lines : List Text} (h : SplitsInto t lines) {m : Nat}
    (hm : m < lines.length) (hpos : 0 < m) :
    ∃ x y, t = x ++ '\n' :: y ∧
      ∀ c, c ≠ '\n' → c ≠ '\r' → (lines.take m).flatten.count c = x.count c := by
  induction h generalizing m with
  | last => simp at hm; omega
  | @line line sep t lines _ hsep _ ih =>
    obtain ⟨k, rfl⟩ : ∃ k, m = k + 1 := ⟨m - 1, by omega⟩
    rcases Nat.eq_zero_or_pos k with rfl | hk
    · rcases hsep with rfl | rfl
      · exact ⟨line, t, by simp, by simp⟩
      · refine ⟨line ++ ['\r'], t, by simp, ?_⟩
        intro c _ hcr
        simp [Ne.symm hcr]
    · obtain ⟨x, y, rfl, hcount⟩ := ih (by simpa using hm) hk
      refine ⟨line ++ (sep ++ x), y, by simp, ?_⟩
      intro c hnl hcr
      have hsep : sep.count c = 0 := by
        rcases hsep with rfl | rfl <;> simp [Ne.symm hnl, Ne.symm hcr]
      simp [hcount c hnl hcr, hsep]

theorem SplitsInto.count_flatten {t : Text} {lines : List Text} (h : SplitsInto t lines) {c : Char}
    (hnl : c ≠ '\n') (hcr : c ≠ '\r') : lines.flatten.count c = t.count c := by
  induction h with
  | last => simp
  | @line line sep t lines _ hsep _ ih =>
    have hsep : sep.count c = 0 := by
      rcases hsep with rfl | rfl <;> simp [Ne.symm hnl, Ne.symm hcr]
    simp [ih, hsep]

theorem splitLines_of_not_mem {t : Text} (h : '\n' ∉ t) : splitLines t = [t] := by
  obtain ⟨init, last, hnil, ht⟩ := exists_splitLines_append_right h []
  obtain ⟨rfl, rfl⟩ : init = [] ∧ last = [] := by
    have hsingle : [([] : Text)] = init ++ [last] := hnil
    cases init with
    | nil => exact ⟨rfl, by simpa using hsingle.symm⟩
    | cons i init => simp at hsingle
  exact ht

theorem splitLines_join {lines : List Text} (hne : lines ≠ [])
    (h : ∀ line ∈ lines, '\r' ∉ line ∧ '\n' ∉ line) : splitLines (join ['\n'] lines) = lines := by
  induction lines with
  | nil => exact absurd rfl hne
  | cons line rest ih =>
    obtain ⟨⟨hcr, hnl⟩, hrest⟩ := List.forall_mem_cons.mp h
    have hlast : line.getLast? ≠ some '\r' := fun hlast => hcr (List.mem_of_getLast? hlast)
    cases rest with
    | nil =>
      have hline := splitLines_append_left (r := []) hnl hlast rfl
      rwa [List.append_nil] at hline
    | cons next rest =>
      have hbreak : splitLines ('\n' :: join ['\n'] (next :: rest)) = [] :: next :: rest := by
        rw [splitLines, ih (by simp) hrest]
      have hline := splitLines_append_left hnl hlast hbreak
      rw [List.append_nil] at hline
      rw [join, List.append_assoc, List.singleton_append]
      exact hline

/-! Words. -/

/-- The longest runs of characters that are not blank. -/
def words (t : Text) : List Text := (splitWhere isBlank t).filter (· ≠ [])

theorem words_append {c : Char} (hc : isBlank c = true) (x y : Text) :
    words (x ++ c :: y) = words x ++ words y := by
  rw [words, splitWhere_append hc, List.filter_append]
  rfl

theorem words_blanks_append {b : Text} (hb : ∀ c ∈ b, isBlank c = true) (t : Text) :
    words (b ++ t) = words t := by
  induction b with
  | nil => rfl
  | cons c b ih =>
    obtain ⟨hc, hb⟩ := List.forall_mem_cons.mp hb
    have hcons := words_append hc [] (b ++ t)
    rw [List.cons_append, ← ih hb]
    exact hcons

theorem words_append_blanks {b : Text} (hb : ∀ c ∈ b, isBlank c = true) (t : Text) :
    words (t ++ b) = words t := by
  cases b with
  | nil => rw [List.append_nil]
  | cons c b =>
    obtain ⟨hc, hb⟩ := List.forall_mem_cons.mp hb
    have hblank := words_blanks_append hb []
    rw [List.append_nil] at hblank
    rw [words_append hc, hblank]
    exact List.append_nil _

theorem words_trim (t : Text) : words (trim t) = words t := by
  obtain ⟨b, hb, hleft⟩ := exists_blanks_trimLeft t
  obtain ⟨b', hb', hright⟩ := exists_trimRight_blanks (trimLeft t)
  calc words (trim t) = words (trim t ++ b') := (words_append_blanks hb' _).symm
    _ = words (trimLeft t) := by rw [trim, ← hright]
    _ = words (b ++ trimLeft t) := (words_blanks_append hb _).symm
    _ = words t := by rw [← hleft]

theorem SplitsInto.words_eq {t : Text} {lines : List Text} (h : SplitsInto t lines) :
    words t = lines.flatMap words := by
  induction h with
  | last => simp
  | @line line sep t lines _ hsep _ ih =>
    rcases hsep with rfl | rfl
    · rw [List.singleton_append, words_append (by decide), ih, List.flatMap_cons]
    · rw [List.flatMap_cons, ← ih]
      have hnl := words_append (c := '\n') (by decide) [] t
      rw [List.cons_append, words_append (by decide), List.singleton_append]
      exact congrArg _ hnl

theorem words_join (ts : List Text) : words (join [' '] ts) = ts.flatMap words := by
  induction ts with
  | nil => rfl
  | cons t ts ih =>
    cases ts with
    | nil => simp [join]
    | cons u ts =>
      rw [join, List.append_assoc, List.singleton_append, words_append (by decide), ih]
      rfl

theorem exists_join_append (sep : Text) (ts : List Text) (t : Text) :
    ∃ u, join sep (ts ++ [t]) = u ++ t := by
  induction ts with
  | nil => exact ⟨[], rfl⟩
  | cons s ts ih =>
    obtain ⟨u, hu⟩ := ih
    cases ts with
    | nil => exact ⟨s ++ sep, rfl⟩
    | cons s' ts =>
      refine ⟨s ++ sep ++ u, ?_⟩
      rw [List.cons_append, List.cons_append, join, ← List.cons_append, hu, List.append_assoc,
        List.append_assoc, List.append_assoc]

theorem words_joined_lines (t : Text) :
    words (join [' '] ((splitLines t).map trim)) = words t := by
  rw [words_join, (splitsInto_splitLines t).words_eq, List.flatMap_map]
  simp only [words_trim]

theorem words_cons_blank {c : Char} (hc : isBlank c = true) (t : Text) : words (c :: t) = words t :=
  words_blanks_append (b := [c]) (by simpa using hc) t

theorem words_singleton {c : Char} (hc : isBlank c = false) : words [c] = [[c]] := by
  simp [words, splitWhere, hc]

theorem exists_words_cons_cons {c d : Char} (hc : isBlank c = false) (hd : isBlank d = false)
    (t : Text) : ∃ w ws, words (d :: t) = w :: ws ∧ words (c :: d :: t) = (c :: w) :: ws := by
  cases hs : splitWhere isBlank t with
  | nil => exact absurd hs (splitWhere_ne_nil isBlank t)
  | cons s ss => exact ⟨d :: s, ss.filter (· ≠ []), by simp [words, splitWhere, hc, hd, hs]⟩

theorem ne_nil_of_mem_words {t w : Text} (h : w ∈ words t) : w ≠ [] := by
  simpa using (List.mem_filter.mp h).2

/-! Normalizing keeps the words. -/

theorem trimLeft_collapseFrom_true (t : Text) : trimLeft (collapseFrom true t) = collapseFrom true t := by
  induction t with
  | nil => rfl
  | cons c t ih =>
    rw [collapseFrom]
    split
    · exact ih
    · rename_i hc
      exact trimLeft_cons (Bool.eq_false_iff.mpr hc) _

theorem trimLeft_collapseFrom_false (t : Text) : trimLeft (collapseFrom false t) = collapseFrom true t := by
  cases t with
  | nil => rfl
  | cons c t =>
    rw [collapseFrom, collapseFrom]
    split
    · have hspace := trimLeft_blanks_append (b := [' ']) (by decide) (collapseFrom true t)
      rw [trimLeft_collapseFrom_true] at hspace
      exact hspace
    · rename_i hc
      exact trimLeft_cons (Bool.eq_false_iff.mpr hc) _

theorem normalizeBlanks_eq_trimRight (t : Text) :
    normalizeBlanks t = trimRight (collapseFrom true t) := by
  rw [normalizeBlanks, trim, trimLeft_collapseFrom_false]

/-- The blanks of the text are single spaces. -/
structure SingleSpaced (t : Text) : Prop where
  eq_space : ∀ c ∈ t, isBlank c = true → c = ' '
  single : ¬ [' ', ' '] <:+: t

namespace SingleSpaced

theorem collapseFrom_eq {t : Text} (h : SingleSpaced t) : collapseFrom false t = t :=
  collapseFrom_of_single h.eq_space h.single

theorem mono {s t : Text} (h : SingleSpaced t) (hs : s <:+: t) : SingleSpaced s :=
  ⟨fun c hc => h.eq_space c (hs.subset hc), fun hdouble => h.single (hdouble.trans hs)⟩

theorem cons {c : Char} {t : Text} (hc : isBlank c = true → c = ' ' ∧ ∀ d ∈ t.head?, isBlank d = false)
    (h : SingleSpaced t) : SingleSpaced (c :: t) := by
  refine ⟨List.forall_mem_cons.mpr ⟨fun hblank => (hc hblank).1, h.eq_space⟩, fun hdouble => ?_⟩
  rcases List.infix_cons_iff.mp hdouble with ⟨r, hr⟩ | hdouble
  · obtain ⟨rfl, rfl⟩ := List.cons.inj hr
    exact absurd ((hc (by decide)).2 ' ' rfl) (by decide)
  · exact h.single hdouble

end SingleSpaced

theorem singleSpaced_collapseFrom (gap : Bool) (t : Text) : SingleSpaced (collapseFrom gap t) := by
  induction t generalizing gap with
  | nil => exact ⟨nofun, by simp [collapseFrom]⟩
  | cons c t ih =>
    rw [collapseFrom]
    split
    · split
      · exact ih true
      · -- a space opens a run, so what follows it starts with another character
        refine (ih true).cons fun _ => ⟨rfl, fun d hd => ?_⟩
        obtain ⟨r, hr⟩ := List.head?_eq_some_iff.mp hd
        exact isBlank_of_trimLeft_eq_cons ((trimLeft_collapseFrom_true t).trans hr)
    · rename_i hc
      exact (ih false).cons fun hblank => absurd hblank hc

theorem singleSpaced_normalizeBlanks (t : Text) : SingleSpaced (normalizeBlanks t) :=
  (singleSpaced_collapseFrom false t).mono (infix_trim _)

theorem normalizeBlanks_cons {c : Char} (hc : isBlank c = false) (t : Text) :
    normalizeBlanks (c :: t) = c :: trimRight (collapseFrom false t) := by
  rw [normalizeBlanks_eq_trimRight, collapseFrom_cons hc]
  exact trimRight_append_cons hc [] _

theorem trimRight_cons_ne_nil {t : Text} (h : trimRight t ≠ []) (c : Char) :
    trimRight (c :: t) = c :: trimRight t := by
  unfold trimRight at h ⊢
  rw [List.reverse_cons, List.dropWhile_append, if_neg (by simpa using h)]
  simp

theorem trimRight_cons_of_eq_nil {c : Char} (hc : isBlank c = true) {t : Text} (h : trimRight t = []) :
    trimRight (c :: t) = [] := by
  obtain ⟨b, hb, ht⟩ := exists_trimRight_blanks t
  rw [h, List.nil_append] at ht
  exact trimRight_blanks (List.forall_mem_cons.mpr ⟨hc, ht ▸ hb⟩)

/-- Normalizing leaves single spaces between the words. -/
theorem normalizeBlanks_eq_join_words (t : Text) : normalizeBlanks t = join [' '] (words t) := by
  induction t with
  | nil => rfl
  | cons c t ih =>
    cases hc : isBlank c with
    | true => rw [words_cons_blank hc, ← ih, normalizeBlanks_eq_trimRight, collapseFrom, if_pos hc,
        if_pos rfl, normalizeBlanks_eq_trimRight]
    | false =>
      rw [normalizeBlanks_cons hc]
      cases t with
      | nil => rw [words_singleton hc]; rfl
      | cons d t =>
        cases hd : isBlank d with
        | false =>
          obtain ⟨w, ws, hw, hcw⟩ := exists_words_cons_cons hc hd t
          rw [collapseFrom_cons hd, ← collapseFrom_cons hd true, ← normalizeBlanks_eq_trimRight, ih,
            hw, hcw]
          cases ws <;> rfl
        | true =>
          -- The blank ends the word; it is written as one space only if another word follows.
          have hsplit : words (c :: d :: t) = [c] :: words t := by
            have happend := words_append hd [c] t
            rw [words_singleton hc] at happend
            exact happend
          have hrest : trimRight (collapseFrom true t) = join [' '] (words t) := by
            rw [words_cons_blank hd, normalizeBlanks_eq_trimRight, collapseFrom, if_pos hd,
              if_pos rfl] at ih
            exact ih
          rw [hsplit, collapseFrom, if_pos hd, if_neg (by simp)]
          cases hw : words t with
          | nil =>
            rw [hw] at hrest
            rw [trimRight_cons_of_eq_nil (by decide) hrest]
            rfl
          | cons w ws =>
            have hne : w ≠ [] := ne_nil_of_mem_words (hw ▸ List.mem_cons_self)
            rw [hw] at hrest
            rw [trimRight_cons_ne_nil (by cases ws <;> simp [hrest, join, hne]), hrest]
            rfl

theorem normalizeBlanks_joined_lines (t : Text) :
    normalizeBlanks (join [' '] ((splitLines t).map trim)) = normalizeBlanks t := by
  rw [normalizeBlanks_eq_join_words, words_joined_lines, ← normalizeBlanks_eq_join_words]

end EditorInsight.Text
