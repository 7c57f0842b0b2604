import EditorInsight.Files.Disk
import EditorInsight.Proofs.Text.Lines

/-!
# Laws of paths

A place whose names are proper has one canonical path, and a path gives the place back. Tidying a path
drops only pieces that lead nowhere, and never makes the path longer.
-/

namespace EditorInsight

namespace Path

open Text

/-- A name that a folder can hold something under. -/
structure IsPlain (name : Text) : Prop where
  ne_nil : name ≠ []
  slash_not_mem : '/' ∉ name

/-- A name that stands for itself in a path. -/
structure IsProper (name : Text) : Prop extends IsPlain name where
  ne_dot : name ≠ ['.']
  ne_dots : name ≠ ['.', '.']
  null_not_mem : '\x00' ∉ name

instance (name : Text) : Decidable (IsPlain name) :=
  decidable_of_iff (name ≠ [] ∧ '/' ∉ name) ⟨fun h => ⟨h.1, h.2⟩, fun h => ⟨h.1, h.2⟩⟩

instance (name : Text) : Decidable (IsProper name) :=
  decidable_of_iff (IsPlain name ∧ name ≠ ['.'] ∧ name ≠ ['.', '.'] ∧ '\x00' ∉ name)
    ⟨fun h => ⟨h.1, h.2.1, h.2.2.1, h.2.2.2⟩,
      fun h => ⟨h.toIsPlain, h.ne_dot, h.ne_dots, h.null_not_mem⟩⟩

def leads (piece : Text) : Bool := piece ≠ [] && piece ≠ ['.']

theorem pieces_cons_slash (p : Text) : pieces ('/' :: p) = [] :: pieces p := by
  simp [pieces, splitWhere]

theorem components_cons_slash (p : Text) : components ('/' :: p) = components p := by
  rw [components, pieces_cons_slash]
  rfl

theorem isPlain_of_mem_components {p name : Text} (h : name ∈ components p) : IsPlain name := by
  obtain ⟨hmem, hleads⟩ := List.mem_filter.mp h
  rw [Bool.and_eq_true] at hleads
  exact ⟨by simpa using hleads.1, not_mem_of_mem_splitWhere hmem⟩

/-! Canonical paths. -/

theorem pieces_ofPlace {place : List Text} (hne : place ≠ []) (h : ∀ name ∈ place, IsPlain name) :
    pieces (ofPlace place) = [] :: place := by
  rw [ofPlace, pieces_cons_slash, pieces,
    splitWhere_join hne fun name hname => (h name hname).slash_not_mem]

theorem ofPlace_injective {p q : List Text} (hp : ∀ name ∈ p, IsPlain name)
    (hq : ∀ name ∈ q, IsPlain name) (h : ofPlace p = ofPlace q) : p = q := by
  have hback {p : List Text} (hp : ∀ name ∈ p, IsPlain name) :
      (pieces (ofPlace p)).filter (· ≠ []) = p := by
    by_cases hne : p = []
    · subst hne
      rfl
    · rw [pieces_ofPlace hne hp, List.filter_cons_of_neg (by simp), List.filter_eq_self]
      intro name hname
      simpa using (hp name hname).ne_nil
  rw [← hback hp, ← hback hq, h]

theorem components_ofPlace {place : List Text} (h : ∀ name ∈ place, IsProper name) :
    components (ofPlace place) = place := by
  by_cases hne : place = []
  · subst hne
    rfl
  · rw [components, pieces_ofPlace hne fun name hname => (h name hname).toIsPlain,
      List.filter_cons_of_neg (by simp), List.filter_eq_self]
    intro name hname
    simp [(h name hname).ne_nil, (h name hname).ne_dot]

theorem foldl_follow {place : List Text} (h : ∀ name ∈ place, IsProper name) (start : List Text) :
    place.foldl follow start = start ++ place := by
  induction place generalizing start with
  | nil => simp
  | cons name place ih =>
    obtain ⟨hname, hplace⟩ := List.forall_mem_cons.mp h
    rw [List.foldl_cons, ih hplace, follow, if_neg hname.ne_dots, List.append_assoc,
      List.singleton_append]

theorem place_ofPlace {place : List Text} (h : ∀ name ∈ place, IsProper name) (current : List Text) :
    Path.place current (ofPlace place) = place := by
  rw [Path.place, components_ofPlace h]
  exact foldl_follow h []

theorem hasNull_ofPlace {place : List Text} (h : ∀ name ∈ place, IsProper name) :
    hasNull (ofPlace place) = false := by
  have hjoin : '\x00' ∉ Text.join ['/'] place := by
    induction place with
    | nil => simp [Text.join]
    | cons name place ih =>
      obtain ⟨hname, hplace⟩ := List.forall_mem_cons.mp h
      cases place with
      | nil => exact hname.null_not_mem
      | cons next place => simp [Text.join, hname.null_not_mem, ih hplace]
  rw [hasNull, List.any_eq_false]
  intro c hc
  rw [beq_iff_eq]
  rintro rfl
  rcases List.mem_cons.mp hc with hslash | hc
  · exact absurd hslash (by decide)
  · exact hjoin hc

theorem canonical_ofPlace {place : List Text} (h : ∀ name ∈ place, IsProper name)
    (current : List Text) : canonical current (ofPlace place) = .ok (ofPlace place) := by
  rw [canonical, hasNull_ofPlace h, place_ofPlace h]
  rfl

theorem isPlain_of_mem_place {current : List Text} (hcurrent : ∀ name ∈ current, IsPlain name)
    (p : Text) : ∀ name ∈ place current p, IsPlain name := by
  have hfollow (cs : List Text) (hcs : ∀ name ∈ cs, IsPlain name) (start : List Text)
      (hstart : ∀ name ∈ start, IsPlain name) : ∀ name ∈ cs.foldl follow start, IsPlain name := by
    induction cs generalizing start with
    | nil => exact hstart
    | cons c cs ih =>
      obtain ⟨hc, hcs⟩ := List.forall_mem_cons.mp hcs
      refine ih hcs _ fun name hname => ?_
      unfold follow at hname
      split at hname
      · exact hstart name ((List.dropLast_sublist start).subset hname)
      · rcases List.mem_append.mp hname with hname | hname
        · exact hstart name hname
        · rwa [List.mem_singleton.mp hname]
  refine hfollow _ (fun name hname => isPlain_of_mem_components hname) _ ?_
  split
  · simp
  · exact hcurrent

/-! Tidy paths. -/

theorem tidy_ne_nil (p : Text) : tidy p ≠ [] := by
  unfold tidy
  split
  · simp
  · rename_i hne
    exact hne

theorem exists_rootSlashes (p : Text) : ∃ k n r, p = List.replicate k '/' ++ r ∧
    rootSlashes p = List.replicate n '/' ∧ n ≤ k ∧ isAbsolute p = decide (0 < n) := by
  have hslashes : p.takeWhile (· == '/') = List.replicate (p.takeWhile (· == '/')).length '/' := by
    rw [List.eq_replicate_iff]
    exact ⟨rfl, fun c hc => by simpa using List.mem_takeWhile_imp hc⟩
  have habsolute : isAbsolute p = decide (0 < (p.takeWhile (· == '/')).length) := by
    cases p with
    | nil => rfl
    | cons c r => by_cases hc : c = '/' <;> simp [isAbsolute, hc]
  have hsplit : p = List.replicate (p.takeWhile (· == '/')).length '/' ++ p.dropWhile (· == '/') := by
    rw [← hslashes, List.takeWhile_append_dropWhile]
  rw [habsolute]
  unfold rootSlashes
  generalize (p.takeWhile (· == '/')).length = k at hsplit ⊢
  split
  · exact ⟨0, 0, p.dropWhile (· == '/'), hsplit, rfl, Nat.le_refl 0, rfl⟩
  · exact ⟨2, 2, p.dropWhile (· == '/'), hsplit, rfl, Nat.le_refl 2, rfl⟩
  · rename_i hzero _
    have hpos : 0 < k := Nat.pos_of_ne_zero hzero
    exact ⟨k, 1, p.dropWhile (· == '/'), hsplit, rfl, hpos, by simp [hpos]⟩

theorem pieces_replicate_append (n : Nat) (p : Text) :
    pieces (List.replicate n '/' ++ p) = List.replicate n [] ++ pieces p := by
  induction n with
  | zero => rfl
  | succ n ih => rw [List.replicate_succ, List.cons_append, pieces_cons_slash, ih, List.replicate_succ,
      List.cons_append]

theorem components_replicate_append (n : Nat) (p : Text) :
    components (List.replicate n '/' ++ p) = components p := by
  induction n with
  | zero => rfl
  | succ n ih => rw [List.replicate_succ, List.cons_append, components_cons_slash, ih]

theorem join_ne_nil {names : List Text} (hne : names ≠ []) (h : ∀ name ∈ names, IsPlain name) :
    Text.join ['/'] names ≠ [] := by
  cases names with
  | nil => exact absurd rfl hne
  | cons name names =>
    have hname := (h name List.mem_cons_self).ne_nil
    cases names <;> simp [Text.join, hname]

theorem isAbsolute_join {names : List Text} (h : ∀ name ∈ names, IsPlain name) :
    isAbsolute (Text.join ['/'] names) = false := by
  cases names with
  | nil => rfl
  | cons name names =>
    obtain ⟨hne, hslash⟩ := h name List.mem_cons_self
    cases name with
    | nil => exact absurd rfl hne
    | cons c r =>
      have hc : c ≠ '/' := fun hc => hslash (by simp [hc])
      cases names <;> simp [Text.join, isAbsolute, hc]

/-- Tidying a path that names something keeps where it starts and its components, and takes only
characters of the path. -/
theorem exists_pieces_tidy {p : Text} (h : components p ≠ []) :
    ∃ n, isAbsolute (tidy p) = isAbsolute p ∧
      pieces (tidy p) = List.replicate n [] ++ components p ∧ (tidy p).Sublist p := by
  obtain ⟨k, n, r, hp, hroot, hnk, habsolute⟩ := exists_rootSlashes p
  have hplain : ∀ name ∈ components p, IsPlain name := fun name hname =>
    isPlain_of_mem_components hname
  have htidy : tidy p = List.replicate n '/' ++ Text.join ['/'] (components p) := by
    have hne := join_ne_nil h hplain
    unfold tidy
    split
    · rename_i hnil
      exact absurd (List.append_eq_nil_iff.mp hnil).2 hne
    · rw [hroot]
  have hjoin : pieces (Text.join ['/'] (components p)) = components p :=
    splitWhere_join h fun name hname => (hplain name hname).slash_not_mem
  refine ⟨n, ?_, ?_, ?_⟩
  · rw [habsolute, htidy]
    cases n with
    | zero => exact isAbsolute_join hplain
    | succ n => rfl
  · rw [htidy, pieces_replicate_append, hjoin]
  · rw [htidy]
    have hcomponents : components p = components r := by
      rw [hp, components_replicate_append]
    have hrest : (Text.join ['/'] (components r)).Sublist r := by
      have hsub := join_sublist (c := '/') (List.filter_sublist (p := leads) (l := pieces r))
      rw [show Text.join ['/'] (pieces r) = r from join_splitWhere '/' r] at hsub
      exact hsub
    have hslashes : (List.replicate n '/').Sublist (List.replicate k '/') :=
      (List.replicate_sublist_replicate '/').mpr hnk
    rw [hcomponents]
    exact hp ▸ hslashes.append hrest

end Path
end EditorInsight
