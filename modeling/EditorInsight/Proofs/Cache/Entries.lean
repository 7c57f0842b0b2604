import EditorInsight.Cache.Slot
import EditorInsight.Proofs.Numeric.Clock

/-!
# What caches hold

Look-ups, loads and invalidations say which entries a cache holds afterwards: those it held before, less
some, and the one just loaded. A look-up succeeds where the age of what it finds can be told.
-/

namespace EditorInsight

namespace KeyedCache

variable {α : Type}

theorem exists_isFresh (ttl : Quantity) {now before : Quantity} (h : ∃ gap, now.sub before = .ok gap) :
    ∃ fresh, isFresh ttl now before = .ok fresh := by
  obtain ⟨gap, hgap⟩ := h
  exact ⟨gap.lt ttl, by rw [isFresh, hgap]; rfl⟩

theorem mem_without {entries : List (Text × CacheEntry α)} {key : Text} {x : Text × CacheEntry α} :
    x ∈ without entries key ↔ x ∈ entries ∧ x.1 ≠ key := by
  rw [without, List.mem_filter, decide_eq_true_eq]

theorem mem_of_find? {c : KeyedCache α} {key : Text} {e : CacheEntry α} (h : c.find? key = some e) :
    (key, e) ∈ c.entries := by
  obtain ⟨x, hx, rfl⟩ := Option.map_eq_some_iff.mp h
  have hkey : x.1 = key := by simpa using List.find?_some hx
  rw [← hkey]
  exact List.mem_of_find?_eq_some hx

theorem lookup_cases {c : KeyedCache α} {now : Quantity}
    (hages : ∀ x ∈ c.entries, ∃ age, now.sub x.2.loadedAt = .ok age) (key : Text) :
    (∃ e cache, c.lookup key now = .ok (.hit e.value cache) ∧ (key, e) ∈ c.entries ∧
      ∀ x ∈ cache.entries, x ∈ c.entries) ∨
    ∃ isRefresh, c.lookup key now = .ok (.load ⟨key, now, c.generation, isRefresh⟩) := by
  cases hfind : c.find? key with
  | none => exact .inr ⟨false, by rw [lookup, hfind]⟩
  | some e =>
    have hmem := mem_of_find? hfind
    obtain ⟨fresh, hfresh⟩ := exists_isFresh c.ttl (hages _ hmem)
    cases fresh with
    | false => exact .inr ⟨true, by rw [lookup, hfind]; simp only [hfresh]; rfl⟩
    | true =>
      refine .inl ⟨e, _, by rw [lookup, hfind]; simp only [hfresh]; rfl, hmem, fun x hx => ?_⟩
      rcases List.mem_append.mp hx with hx | hx
      · exact (mem_without.mp hx).1
      · rw [List.mem_singleton.mp hx]
        exact hmem

theorem mem_of_mem_settle {c : KeyedCache α} {ticket : LoadTicket} {value : α}
    {x : Text × CacheEntry α} (h : x ∈ (c.settle ticket value).entries) :
    x ∈ c.entries ∨ (x = (ticket.key, ⟨ticket.startedAt, value⟩) ∧ ticket.generation = c.generation) := by
  unfold settle at h
  simp only at h
  split at h
  · exact .inl h
  · rename_i hgeneration
    rcases List.mem_append.mp (List.mem_of_mem_drop h) with h | h
    · exact .inl (mem_without.mp h).1
    · exact .inr ⟨List.mem_singleton.mp h, not_not.mp hgeneration⟩

end KeyedCache

namespace SlotCache

theorem lookup_cases {c : SlotCache} {key : Text} {now : Quantity}
    (hage : ∀ e, c.slot = some e → e.key = key → ∃ age, now.sub e.loadedAt = .ok age) :
    (∃ e cache, c.lookup key now = .ok (.hit e.names cache) ∧ c.slot = some e ∧ e.key = key ∧
      cache.slot = some e) ∨
    ∃ isRefresh, c.lookup key now = .ok (.load ⟨key, now, isRefresh⟩) := by
  cases hfind : c.slot with
  | none => exact .inr ⟨false, by rw [lookup, hfind]⟩
  | some e =>
    by_cases hkey : e.key = key
    · obtain ⟨fresh, hfresh⟩ := KeyedCache.exists_isFresh c.ttl (hage e hfind hkey)
      cases fresh with
      | false =>
        refine .inr ⟨true, ?_⟩
        rw [lookup, hfind]
        simp only [hkey, if_true, hfresh]
        rfl
      | true =>
        refine .inl ⟨e, { c with statistics := { c.statistics with hits := c.statistics.hits + 1 } },
          ?_, rfl, hkey, hfind⟩
        rw [lookup, hfind]
        simp only [hkey, if_true, hfresh]
        rw [← hfind]
        rfl
    · refine .inr ⟨false, ?_⟩
      rw [lookup, hfind]
      simp only [if_neg hkey]

theorem lookup_eq_ok {c : SlotCache} {key : Text} {now : Quantity} {found : SlotLookup}
    (h : c.lookup key now = .ok found) :
    (∃ e, c.slot = some e ∧
      found = .hit e.names { c with statistics := { c.statistics with hits := c.statistics.hits + 1 } }) ∨
    ∃ isRefresh, found = .load ⟨key, now, isRefresh⟩ ∧ (isRefresh = true ↔
      ∃ e, c.slot = some e ∧ e.key = key ∧ KeyedCache.isFresh c.ttl now e.loadedAt = .ok false) := by
  unfold lookup at h
  cases hslot : c.slot with
  | none =>
    rw [hslot] at h
    exact .inr ⟨false, (Except.ok.inj h).symm, by simp⟩
  | some e =>
    rw [hslot] at h
    by_cases hkey : e.key = key
    · simp only [if_pos hkey] at h
      cases hfresh : KeyedCache.isFresh c.ttl now e.loadedAt with
      | error f =>
        simp only [hfresh] at h
        cases h
      | ok fresh =>
        simp only [hfresh] at h
        cases fresh with
        | true => exact .inl ⟨e, rfl, (Except.ok.inj h).symm⟩
        | false => exact .inr ⟨true, (Except.ok.inj h).symm, by simp [hkey, hfresh]⟩
    · simp only [if_neg hkey] at h
      exact .inr ⟨false, (Except.ok.inj h).symm, by simp [hkey]⟩

end SlotCache
end EditorInsight
