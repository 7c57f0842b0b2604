import EditorInsight.Ambient.Schema
import EditorInsight.Proofs.Source.CursorPlaces

/-!
# The signature of an ambient member

A member that is offered after a key with a detail has that detail as its signature: the search for the
signature of the longer expression begins at that very key.
-/

namespace EditorInsight

open Text

namespace Value

theorem sameKey_text (v : Value) (t : Text) : sameKey v (.text t) = v.isText t := by
  cases v <;> simp [sameKey, isText, numeric?]

theorem text_sameKey (t : Text) (v : Value) : sameKey (.text t) v = v.isText t := by
  cases v <;> simp [sameKey, isText, numeric?, eq_comm]

theorem isText_iff {v : Value} {t : Text} : v.isText t = true ↔ v = .text t := by
  cases v <;> simp [isText]

variable {α : Type}

theorem field?_cons (e : Value × α) (es : List (Value × α)) (name : Text) :
    field? (e :: es) name = if e.1.isText name then some e.2 else field? es name := by
  rw [field?, List.find?_cons, sameKey_text]
  cases e.1.isText name <;> rfl

theorem field?_putEntry (k : Value) (v : α) (es : List (Value × α)) (name : Text) :
    field? (putEntry k v es) name = if k.isText name then some v else field? es name := by
  induction es with
  | nil => exact field?_cons (k, v) [] name
  | cons e es ih =>
    rw [putEntry]
    split
    · rename_i hsame
      -- The key of the entry that is replaced is the text exactly if the new key is.
      have hkeys : e.1.isText name = k.isText name := by
        rw [Bool.eq_iff_iff]
        constructor
        · intro he
          rw [isText_iff.mp he, text_sameKey] at hsame
          exact hsame
        · intro hk
          rw [isText_iff.mp hk, sameKey_text] at hsame
          exact hsame
      rw [field?_cons, field?_cons, hkeys]
      split <;> rfl
    · rw [field?_cons, field?_cons, ih]
      rename_i hdiffer
      cases he : e.1.isText name with
      | false => simp
      | true =>
        have hk : k.isText name = false := by
          by_contra hk
          rw [isText_iff.mp he, text_sameKey] at hdiffer
          exact hdiffer (Bool.not_eq_false _ ▸ hk)
        simp [hk]

theorem mem_or_of_field?_foldl {es acc : List (Value × α)} {name : Text} {v : α}
    (h : field? (es.foldl (fun acc e => putEntry e.1 e.2 acc) acc) name = some v) :
    (.text name, v) ∈ es ∨ field? acc name = some v := by
  induction es generalizing acc with
  | nil => exact .inr h
  | cons e es ih =>
    rcases ih h with hmem | hacc
    · exact .inl (List.mem_cons_of_mem e hmem)
    · rw [field?_putEntry] at hacc
      split at hacc
      · rename_i hname
        obtain rfl := Option.some.inj hacc
        rw [← isText_iff.mp hname]
        exact .inl List.mem_cons_self
      · exact .inr hacc

theorem mem_of_field?_distinctEntries {es : List (Value × α)} {name : Text} {v : α}
    (h : field? (distinctEntries es) name = some v) : (.text name, v) ∈ es := by
  rcases mem_or_of_field?_foldl h with hmem | hnil
  · exact hmem
  · cases hnil

theorem eq_of_pairwise {key : α → Value} {xs : List α} {x y : α} {t : Text}
    (h : xs.Pairwise fun x y => sameKey (key x) (key y) = false) (hx : x ∈ xs) (hy : y ∈ xs)
    (hkey : key x = .text t) (hkey' : key y = .text t) : x = y := by
  have hsame {a b : α} (ha : key a = .text t) (hb : key b = .text t) : sameKey (key a) (key b) = true := by
    rw [ha, hb, sameKey_text]
    exact isText_iff.mpr rfl
  induction xs with
  | nil => cases hx
  | cons z xs ih =>
    obtain ⟨hz, hxs⟩ := List.pairwise_cons.mp h
    rcases List.mem_cons.mp hx with rfl | hxmem
    · rcases List.mem_cons.mp hy with rfl | hymem
      · rfl
      · cases (hsame hkey hkey').symm.trans (hz y hymem)
    · rcases List.mem_cons.mp hy with rfl | hymem
      · cases (hsame hkey' hkey).symm.trans (hz x hxmem)
      · exact ih hxs hxmem hymem

end Value

namespace Schema

/-- The keys of the classes are distinct, and so are the labels that each class offers. A class named
`exceptions` has that name for its key. -/
structure WellKeyed (s : Schema) : Prop where
  keys_distinct : s.classes.Pairwise fun c c' => Value.sameKey c.key c'.key = false
  labels_distinct : ∀ c ∈ s.classes,
    c.completions.Pairwise fun i j => Value.sameKey i.label j.label = false
  key_of_exceptions : ∀ c ∈ s.classes, c.name.isText "exceptions" = true → c.key.isText "exceptions" = true

variable {s : Schema}

theorem exists_class_of_completionsFor? {key : Text} {items : List AmbientCompletion}
    (h : s.completionsFor? key = some items) : ∃ c ∈ s.classes, c.key = .text key ∧ c.completions = items := by
  have hmem := Value.mem_of_field?_distinctEntries h
  obtain ⟨c, hc, heq⟩ := List.mem_map.mp (List.mem_filter.mp hmem).1
  obtain ⟨hkey, hitems⟩ := Prod.mk.inj heq
  exact ⟨c, hc, hkey, hitems⟩

theorem detailFor?_of_mem {items : List AmbientCompletion} {label detail : Text} {i : AmbientCompletion}
    (hdistinct : items.Pairwise fun i j => Value.sameKey i.label j.label = false) (hi : i ∈ items)
    (hlabel : i.label = .text label) (hdetail : i.detail = some detail) (hne : detail ≠ []) :
    detailFor? items label = some detail := by
  have hshown : i.detail.filter (!·.isEmpty) = some detail := by
    rw [hdetail, Option.filter_some_pos (by simpa using hne)]
  have hfound : ∃ shown, detailFor? items label = some shown := by
    rw [← Option.isSome_iff_exists, detailFor?, List.findSome?_isSome_iff]
    refine ⟨i, hi, ?_⟩
    rw [hlabel, if_pos (Value.isText_iff.mpr rfl), hshown]
    rfl
  obtain ⟨shown, hshownFor⟩ := hfound
  obtain ⟨j, hj, hjdetail⟩ := List.exists_of_findSome?_eq_some hshownFor
  split at hjdetail
  · rename_i hjlabel
    obtain rfl := Value.eq_of_pairwise hdistinct hi hj hlabel (Value.isText_iff.mp hjlabel)
    rw [hshownFor, ← hjdetail, hshown]
  · cases hjdetail

theorem exists_keysOf {key : Text} (hkey : isChain key = true) (label : Text) :
    ∃ rest, keysOf (splitDotted key ++ [label]) = key :: rest := by
  have hne := splitDotted_ne_nil hkey
  obtain ⟨n, hn⟩ : ∃ n, (splitDotted key).length = n + 1 :=
    ⟨(splitDotted key).length - 1, (Nat.sub_add_cancel (List.length_pos_iff.mpr hne)).symm⟩
  have hfirst : joinDotted ((splitDotted key ++ [label]).take (n + 1)) = key := by
    rw [← hn, List.take_left, joinDotted_splitDotted hkey]
  unfold keysOf
  rw [List.length_append, List.length_singleton, List.range_succ, hn,
    List.drop_append_of_le_length (by simp), List.reverse_append]
  exact ⟨_, congrArg (· :: _) hfirst⟩

theorem nestedException?_of_completion (hs : s.WellKeyed) {key label : Text} {items : List AmbientCompletion}
    {i : AmbientCompletion} (hitems : s.completionsFor? key = some items) (hi : i ∈ items)
    (hlabel : i.label = .text label) (hkind : i.kind.isText "class" = false) (hchain : isChain key = true) :
    s.nestedException? (splitDotted key ++ [label]) = none := by
  obtain ⟨c, hc, hckey, rfl⟩ := exists_class_of_completionsFor? hitems
  unfold nestedException?
  split
  · rename_i root name hparts
    split
    · rename_i hnested
      exfalso
      rw [Bool.and_eq_true, Option.any_eq_true] at hnested
      obtain ⟨hroot, e, he, hnested⟩ := hnested
      obtain ⟨n, hn, hname⟩ := List.any_eq_true.mp hnested
      have hsplit : splitDotted key ++ [label] = [root] ++ [name] := hparts
      obtain ⟨hsingle, hlast⟩ := List.append_inj' hsplit rfl
      obtain rfl : label = name := List.singleton_inj.mp hlast
      obtain rfl : root = ("exceptions" : Text) := of_decide_eq_true hroot
      have hkey : key = ("exceptions" : Text) := by
        rw [← joinDotted_splitDotted hchain, hsingle]
        rfl
      obtain ⟨e', he', heq⟩ := List.mem_map.mp (Value.mem_of_field?_distinctEntries he)
      obtain ⟨hename, rfl⟩ := Prod.mk.inj heq
      have hekey := hs.key_of_exceptions e' he' (Value.isText_iff.mpr hename)
      rw [hkey] at hckey
      -- So the class is the one that offers the items, and the exception is among them.
      obtain rfl := Value.eq_of_pairwise hs.keys_distinct he' hc (Value.isText_iff.mp hekey) hckey
      have hoffered : (⟨n, "class", some ("class " ++ n.display)⟩ : AmbientCompletion) ∈ e'.completions :=
        List.mem_append_right _ (List.mem_map_of_mem hn)
      obtain rfl := Value.eq_of_pairwise (hs.labels_distinct e' he') hi hoffered hlabel
        (Value.isText_iff.mp hname)
      cases hkind
    · rfl
  · rfl

/-- A member that is offered with a detail, and is no class, has that detail for its signature. -/
theorem signature?_of_completion (hs : s.WellKeyed) {key label detail : Text} {items : List AmbientCompletion}
    {i : AmbientCompletion} (hchain : isChain key = true) (hident : isIdentifier label = true)
    (hitems : s.completionsFor? key = some items) (hi : i ∈ items) (hlabel : i.label = .text label)
    (hkind : i.kind.isText "class" = false) (hdetail : i.detail = some detail) (hne : detail ≠ []) :
    s.signature? (key ++ '.' :: label) = .ok (some detail) := by
  obtain ⟨c, hc, hckey, rfl⟩ := exists_class_of_completionsFor? hitems
  obtain ⟨rest, hkeys⟩ := exists_keysOf hchain label
  have hexception := nestedException?_of_completion hs hitems hi hlabel hkind hchain
  have hmember : s.memberSignature? (splitDotted key ++ [label]) = some detail := by
    have hdetailFor := detailFor?_of_mem (hs.labels_distinct c hc) hi hlabel hdetail hne
    have hfield : Value.field? s.completions key = some c.completions := hitems
    unfold memberSignature?
    simp only [hkeys, List.findSome?_cons, hfield, Option.bind_some, List.getLastD_concat, hdetailFor,
      Option.some_or]
  rw [signature?, splitDotted_append hident]
  obtain ⟨first, others, hparts⟩ := List.exists_cons_of_ne_nil (splitDotted_ne_nil hchain)
  rw [hparts] at hexception hmember ⊢
  obtain ⟨second, more, hothers⟩ : ∃ second more, others ++ [label] = second :: more :=
    List.exists_cons_of_ne_nil (by simp)
  rw [List.cons_append, hothers] at hexception hmember ⊢
  dsimp only
  rw [hexception, hmember]
  rfl

end Schema
end EditorInsight
