import EditorInsight.Data.OrderedMap

/-!
# Laws of ordered maps

What a map holds after a number of puts, in which order, and how putting entries one after the other is the same as
assigning the map that they make.
-/

namespace EditorInsight.OrderedMap

variable {κ α β : Type} [DecidableEq κ]

theorem get?_foldl_put (key : β → κ) (value : β → α) (es : List β) (m : OrderedMap κ α) (k : κ) :
    (es.foldl (fun m e => m.put (key e) (value e)) m).get? k =
      ((es.reverse.find? fun e => key e = k).map value).or (m.get? k) := by
  induction es generalizing m with
  | nil => simp
  | cons e es ih =>
    rw [List.foldl_cons, ih, get?_put, List.reverse_cons, List.find?_append]
    cases es.reverse.find? fun e => key e = k with
    | some e' => simp
    | none =>
      by_cases h : key e = k
      · simp [h]
      · simp [h, Ne.symm h]

theorem isEmpty_eq_false_of_get? {m : OrderedMap κ α} {k : κ} {v : α} (h : m.get? k = some v) :
    m.isEmpty = false := by
  obtain ⟨es⟩ := m
  cases es with
  | nil => simp [get?] at h
  | cons e es => rfl

theorem mem_keys_of_get? {m : OrderedMap κ α} {k : κ} {v : α} (h : m.get? k = some v) : k ∈ m.keys := by
  obtain ⟨e, hfind, -⟩ := Option.map_eq_some_iff.mp h
  have hkey : e.1 = k := by simpa using List.find?_some hfind
  exact hkey ▸ List.mem_map_of_mem (List.mem_of_find?_eq_some hfind)

theorem putEntry_of_not_mem {k : κ} {v : α} {es : List (κ × α)} (h : k ∉ es.map Prod.fst) :
    putEntry k v es = es ++ [(k, v)] := by
  induction es with
  | nil => rfl
  | cons e es ih =>
    rw [List.map_cons, List.mem_cons, not_or] at h
    rw [putEntry, if_neg (Ne.symm h.1), ih h.2, List.cons_append]

theorem putEntry_append_left {k : κ} {v : α} {es : List (κ × α)} (h : k ∈ es.map Prod.fst)
    (more : List (κ × α)) : putEntry k v (es ++ more) = putEntry k v es ++ more := by
  induction es with
  | nil => simp at h
  | cons e es ih =>
    rw [List.cons_append, putEntry, putEntry]
    by_cases he : e.1 = k
    · rw [if_pos he, if_pos he, List.cons_append]
    · have hmem : k ∈ es.map Prod.fst := by
        rw [List.map_cons, List.mem_cons] at h
        exact h.resolve_left (Ne.symm he)
      rw [if_neg he, if_neg he, ih hmem, List.cons_append]

theorem putEntry_append_right {k : κ} {v : α} {es : List (κ × α)} (h : k ∉ es.map Prod.fst)
    (more : List (κ × α)) : putEntry k v (es ++ more) = es ++ putEntry k v more := by
  induction es with
  | nil => rfl
  | cons e es ih =>
    rw [List.map_cons, List.mem_cons, not_or] at h
    rw [List.cons_append, putEntry, if_neg (Ne.symm h.1), ih h.2, List.cons_append]

theorem putEntry_of_mem {k : κ} {v : α} {es : List (κ × α)} (hnodup : (es.map Prod.fst).Nodup)
    (h : k ∈ es.map Prod.fst) :
    putEntry k v es = es.map fun e => (e.1, if e.1 = k then v else e.2) := by
  induction es with
  | nil => simp at h
  | cons e es ih =>
    rw [List.map_cons, List.nodup_cons] at hnodup
    rw [putEntry, List.map_cons]
    by_cases he : e.1 = k
    · have hrest : es.map (fun e => (e.1, if e.1 = k then v else e.2)) = es := by
        rw [List.map_congr_left (g := id), List.map_id]
        intro d hd
        have hne : d.1 ≠ k := by
          rintro rfl
          exact hnodup.1 (he ▸ List.mem_map_of_mem hd)
        simp [hne]
      rw [if_pos he, if_pos he, hrest, he]
    · have hmem : k ∈ es.map Prod.fst := by
        rw [List.map_cons, List.mem_cons] at h
        exact h.resolve_left (Ne.symm he)
      rw [if_neg he, if_neg he, ih hnodup.2 hmem]

theorem nodup_keys_put {m : OrderedMap κ α} (h : m.keys.Nodup) (k : κ) (v : α) :
    (m.put k v).keys.Nodup := by
  simp only [keys, put] at h ⊢
  by_cases hk : k ∈ m.entries.map Prod.fst
  · rw [putEntry_of_mem h hk, List.map_map]
    exact h
  · rw [putEntry_of_not_mem hk, List.map_append, List.nodup_append]
    refine ⟨h, by simp, ?_⟩
    intro a ha b hb
    obtain rfl : b = k := by simpa using hb
    rintro rfl
    exact hk ha

theorem filter_putEntry (p : κ → Bool) (k : κ) (v : α) (es : List (κ × α)) :
    (putEntry k v es).filter (fun e => p e.1) =
      if p k then putEntry k v (es.filter fun e => p e.1) else es.filter fun e => p e.1 := by
  induction es with
  | nil => cases hp : p k <;> simp [putEntry, hp]
  | cons e es ih =>
    rw [putEntry]
    by_cases he : e.1 = k
    · subst he
      cases hp : p e.1 <;> simp [putEntry, hp]
    · rw [if_neg he]
      cases hp : p e.1 with
      | false => simpa [hp] using ih
      | true =>
        rw [List.filter_cons_of_pos (by simpa using hp), List.filter_cons_of_pos (by simpa using hp), ih]
        split <;> simp [putEntry, he]

/-! Assigning one map into another. -/

/-- The map with the entries of another assigned into it: a key that is present keeps its place and takes
the other value, and new keys follow in the order of the other map. -/
def updated (m n : OrderedMap κ α) : OrderedMap κ α :=
  ⟨m.entries.map (fun e => (e.1, (n.get? e.1).getD e.2)) ++ n.entries.filter fun e => e.1 ∉ m.keys⟩

theorem updated_empty (m : OrderedMap κ α) : m.updated {} = m := by
  simp [updated, get?]

theorem updated_put {m : OrderedMap κ α} (hm : m.keys.Nodup) (n : OrderedMap κ α) (k : κ) (v : α) :
    m.updated (n.put k v) = (m.updated n).put k v := by
  have hfilter := filter_putEntry (fun k => decide (k ∉ m.keys)) k v n.entries
  have hkeys : (m.entries.map fun e => (e.1, (n.get? e.1).getD e.2)).map Prod.fst = m.keys := by
    rw [List.map_map]
    rfl
  simp only [updated, get?_put]
  simp only [put, mk.injEq]
  rw [hfilter]
  by_cases hk : k ∈ m.keys
  · -- The value is replaced where the key stands in the first map.
    rw [if_neg (by simpa using hk), putEntry_append_left (by rwa [hkeys]),
      putEntry_of_mem (by rwa [hkeys]) (by rwa [hkeys]), List.map_map]
    congr 1
    refine List.map_congr_left fun e _ => ?_
    by_cases he : e.1 = k
    · simp [he]
    · simp [he]
  · rw [if_pos (by simpa using hk), putEntry_append_right (by rwa [hkeys])]
    congr 1
    refine List.map_congr_left fun e he => ?_
    have hne : e.1 ≠ k := by
      rintro rfl
      exact hk (List.mem_map_of_mem he)
    rw [if_neg hne]

theorem foldl_put_eq_updated (key : β → κ) (value : β → α) {m : OrderedMap κ α} (hm : m.keys.Nodup)
    (es : List β) :
    es.foldl (fun m e => m.put (key e) (value e)) m =
      m.updated (es.foldl (fun m e => m.put (key e) (value e)) {}) := by
  have hfrom (n : OrderedMap κ α) :
      es.foldl (fun m e => m.put (key e) (value e)) (m.updated n) =
        m.updated (es.foldl (fun m e => m.put (key e) (value e)) n) := by
    induction es generalizing n with
    | nil => rfl
    | cons e es ih => rw [List.foldl_cons, List.foldl_cons, ← updated_put hm, ih]
  have hstart := hfrom {}
  rwa [updated_empty] at hstart

theorem nodup_keys_foldl_put (key : β → κ) (value : β → α) (es : List β) {m : OrderedMap κ α}
    (hm : m.keys.Nodup) : (es.foldl (fun m e => m.put (key e) (value e)) m).keys.Nodup := by
  induction es generalizing m with
  | nil => exact hm
  | cons e es ih => exact ih (nodup_keys_put hm _ _)

end EditorInsight.OrderedMap
