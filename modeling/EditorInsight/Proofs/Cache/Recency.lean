import Mathlib.Data.List.Dedup
import Mathlib.Data.List.DropRight
import EditorInsight.Proofs.Cache.History

/-!
# The order of use

A cache keeps its keys in the order in which they were last used. A look-up that gives a value uses its key, whether
it was answered from the cache or loaded; one that fails uses nothing. So what a cache holds after any calls are
the keys of the look-ups that gave a value, each where it was last used, as many from the end as the limit allows.
-/

namespace EditorInsight

/-! The most recent keys of a list of uses. -/

section Uses

variable {κ : Type}

theorem rtake_append_of_le_length {x y : List κ} {n : Nat} (h : n ≤ y.length) :
    (x ++ y).rtake n = y.rtake n := by
  rw [List.rtake, List.rtake, List.length_append, Nat.add_sub_assoc h, List.drop_length_add_append]

theorem rtake_of_length_le {x : List κ} {n : Nat} (h : x.length ≤ n) : x.rtake n = x := by
  rw [List.rtake, Nat.sub_eq_zero_of_le h, List.drop_zero]

theorem length_rtake_le (x : List κ) (n : Nat) : (x.rtake n).length ≤ n := by
  rw [List.rtake, List.length_drop]
  omega

variable [DecidableEq κ]

theorem dedup_concat (uses : List κ) (key : κ) :
    (uses ++ [key]).dedup = uses.dedup.filter (· ≠ key) ++ [key] := by
  induction uses with
  | nil => simp
  | cons k uses ih =>
    by_cases hmem : k ∈ uses
    · rw [List.cons_append, List.dedup_cons_of_mem (by simp [hmem]), List.dedup_cons_of_mem hmem, ih]
    · rw [List.cons_append, List.dedup_cons_of_notMem hmem]
      by_cases hkey : k = key
      · rw [List.dedup_cons_of_mem (by simp [hkey]), ih, List.filter_cons_of_neg (by simp [hkey])]
      · rw [List.dedup_cons_of_notMem (by simp [hmem, hkey]), ih, List.filter_cons_of_pos (by simpa using hkey),
          List.cons_append]

theorem length_filter_concat {keys : List κ} (h : keys.Nodup) (key : κ) :
    (keys.filter (· ≠ key) ++ [key]).length = if key ∈ keys then keys.length else keys.length + 1 := by
  have herase : keys.erase key = keys.filter (· ≠ key) := by
    rw [h.erase_eq_filter]
    simp [bne, Bool.beq_eq_decide_eq]
  rw [← herase, List.length_append, List.length_singleton]
  split
  · rename_i hmem
    exact List.length_erase_add_one hmem
  · rename_i hmem
    rw [List.erase_of_not_mem hmem]

/-- The keys that have dropped out of the most recent ones do not come back when a key moves to the end. -/
theorem rtake_filter_concat {keys : List κ} (h : keys.Nodup) (key : κ) (n : Nat) :
    ((keys.rtake n).filter (· ≠ key) ++ [key]).rtake n = (keys.filter (· ≠ key) ++ [key]).rtake n := by
  by_cases hle : keys.length ≤ n
  · rw [rtake_of_length_le hle]
  · have hsplit : keys = keys.rdrop n ++ keys.rtake n := (List.take_append_drop _ _).symm
    have hlength : (keys.rtake n).length = n := by
      rw [List.rtake, List.length_drop]
      omega
    have hdistinct : (keys.rtake n).Nodup := h.sublist (List.drop_sublist _ _)
    -- at most one of the most recent keys moves, and it comes back at the end
    have hkept : n ≤ ((keys.rtake n).filter (· ≠ key) ++ [key]).length := by
      rw [length_filter_concat hdistinct, hlength]
      split <;> omega
    conv_rhs => rw [hsplit, List.filter_append, List.append_assoc]
    exact (rtake_append_of_le_length hkept).symm

end Uses

/-- Whether a step neither looks up nor invalidates, so that it leaves the cache as it is. -/
def CacheStep.isPassive {α : Type} : CacheStep α → Bool
  | get _ _ _ => false
  | invalidate _ => false
  | _ => true

/-- A look-up with its clock reading and with a loader that leaves the cache as it is. -/
structure CacheCall (α : Type) where
  now : Quantity
  key : Text
  during : List (CacheStep α)
  outcome : Option α
  passive : ∀ t ∈ during, t.isPassive = true

namespace CacheRun

variable {α : Type}

theorem cache_step_of_isPassive (s : CacheRun α) {t : CacheStep α} (h : t.isPassive = true) :
    (s.step t).1.cache = s.cache := by
  cases t with
  | get key during outcome => cases h
  | invalidate key => cases h
  | peek key =>
    unfold step
    cases s.cache.peek? key s.now <;> rfl
  | size => rw [step]
  | statistics => rw [step]
  | ttl => rw [step]
  | setClock now => rw [step]
  | advance d =>
    unfold step
    cases s.now.add d <;> rfl

theorem cache_loading_of_isPassive (s : CacheRun α) {during : List (CacheStep α)}
    (h : ∀ t ∈ during, t.isPassive = true) : (s.loading during).1.cache = s.cache := by
  induction during generalizing s with
  | nil => rw [loading]
  | cons t during ih =>
    obtain ⟨ht, hduring⟩ := List.forall_mem_cons.mp h
    have hstep := s.cache_step_of_isPassive ht
    rw [loading]
    rcases hanswer : s.step t with ⟨s', a⟩
    rw [hanswer] at hstep
    have hrest := (ih s' hduring).trans hstep
    cases a with
    | failed f => exact hstep
    | _ => exact hrest

end CacheRun

namespace KeyedCache

variable {α : Type}

def keys (c : KeyedCache α) : List Text := c.entries.map Prod.fst

def serve (c : KeyedCache α) (call : CacheCall α) : KeyedCache α × CacheAnswer α :=
  let (s, answer) := (CacheRun.mk c call.now).step (.get call.key call.during call.outcome)
  (s.cache, answer)

/-- The key of a call that gives a value. -/
def usedKey (c : KeyedCache α) (call : CacheCall α) : List Text :=
  if (CacheRun.fault? (c.serve call).2).isNone then [call.key] else []

def afterCalls (c : KeyedCache α) : List (CacheCall α) → KeyedCache α
  | [] => c
  | call :: calls => (c.serve call).1.afterCalls calls

def usedKeys (c : KeyedCache α) : List (CacheCall α) → List Text
  | [] => []
  | call :: calls => c.usedKey call ++ (c.serve call).1.usedKeys calls

theorem map_fst_without_append (entries : List (Text × CacheEntry α)) (key : Text) (e : CacheEntry α) :
    (without entries key ++ [(key, e)]).map Prod.fst = (entries.map Prod.fst).filter (· ≠ key) ++ [key] := by
  rw [List.map_append, List.filter_map]
  rfl

theorem map_fst_evict (limit : Int) (entries : List (Text × CacheEntry α)) :
    (evict limit entries).map Prod.fst = (entries.map Prod.fst).rtake limit.toNat := by
  rw [evict, List.rtake, List.map_drop, List.length_map]

theorem mem_keys_of_find? {c : KeyedCache α} {key : Text} {e : CacheEntry α} (h : c.find? key = some e) :
    key ∈ c.keys :=
  List.mem_map.mpr ⟨(key, e), mem_of_find? h, rfl⟩

theorem exhausts_eq_false {c : KeyedCache α} (h : 0 ≤ c.maxEntries) (ticket : LoadTicket) :
    c.exhausts ticket = false := by
  rw [exhausts, Bool.and_eq_false_iff]
  exact .inr (by simpa using h)

theorem maxEntries_settle (c : KeyedCache α) (ticket : LoadTicket) (value : α) :
    (c.settle ticket value).maxEntries = c.maxEntries := by
  unfold settle
  simp only
  split <;> rfl

theorem keys_settle {c : KeyedCache α} {ticket : LoadTicket} (h : ticket.generation = c.generation) (value : α) :
    (c.settle ticket value).keys =
      (c.keys.filter (· ≠ ticket.key) ++ [ticket.key]).rtake c.maxEntries.toNat := by
  unfold settle
  simp only
  rw [if_neg (not_not.mpr h), keys, map_fst_evict, map_fst_without_append]
  rfl

/-- All that a call can do: it fails and changes nothing, or it moves a key of the cache to the end, or it puts a key at
the end and keeps as many as the limit allows. -/
theorem serve_cases (c : KeyedCache α) (hlimit : 0 ≤ c.maxEntries) (call : CacheCall α) :
    (c.usedKey call = [] ∧ (c.serve call).1 = c) ∨
    c.usedKey call = [call.key] ∧ (c.serve call).1.maxEntries = c.maxEntries ∧
      ((call.key ∈ c.keys ∧ (c.serve call).1.keys = c.keys.filter (· ≠ call.key) ++ [call.key]) ∨
        (c.serve call).1.keys = (c.keys.filter (· ≠ call.key) ++ [call.key]).rtake c.maxEntries.toNat) := by
  have hloading := (CacheRun.mk c call.now).cache_loading_of_isPassive call.passive
  unfold usedKey serve CacheRun.step
  cases hlookup : c.lookup call.key call.now with
  | error f => exact .inl ⟨rfl, rfl⟩
  | ok found =>
    rcases lookup_eq_ok hlookup with ⟨e, hfind, -, rfl⟩ | ⟨rfl, -⟩
    · exact .inr ⟨rfl, rfl, .inl ⟨mem_keys_of_find? hfind, map_fst_without_append _ _ _⟩⟩
    · rcases hload : (CacheRun.mk c call.now).loading call.during with ⟨s₁, answers, fault⟩
      rw [hload] at hloading
      cases fault with
      | some fault => exact .inl ⟨rfl, hloading⟩
      | none =>
        cases call.outcome with
        | none => exact .inl ⟨rfl, hloading⟩
        | some value =>
          obtain ⟨cache, now⟩ := s₁
          obtain rfl : cache = c := hloading
          simp only [exhausts_eq_false hlimit]
          exact .inr ⟨rfl, maxEntries_settle _ _ _, .inr (keys_settle rfl value)⟩

/-- A call uses its key, if it gives a value, and the cache goes on to hold the most recently used ones. -/
theorem keys_serve {c : KeyedCache α} {n : Nat} (hlimit : c.maxEntries = n) {uses : List Text}
    (hkeys : c.keys = uses.dedup.rtake n) (call : CacheCall α) : (c.serve call).1.maxEntries = n ∧
      (c.serve call).1.keys = (uses ++ c.usedKey call).dedup.rtake n := by
  rcases c.serve_cases (by omega) call with ⟨hused, hsame⟩ | ⟨hused, hmax, hmoved⟩
  · rw [hused, hsame, List.append_nil]
    exact ⟨hlimit, hkeys⟩
  · refine ⟨hmax.trans hlimit, ?_⟩
    have hplaced : (c.serve call).1.keys = (c.keys.filter (· ≠ call.key) ++ [call.key]).rtake n := by
      rcases hmoved with ⟨hmem, hmoved⟩ | hmoved
      · -- the key had its place already, so nothing has to go
        rw [hmoved, rtake_of_length_le]
        have hdistinct : c.keys.Nodup := by
          rw [hkeys]
          exact (List.nodup_dedup uses).sublist (List.drop_sublist _ _)
        rw [length_filter_concat hdistinct, if_pos hmem, hkeys]
        exact length_rtake_le _ n
      · rw [hmoved, hlimit, Int.toNat_natCast]
    rw [hplaced, hkeys, hused, dedup_concat, rtake_filter_concat (List.nodup_dedup uses)]

theorem keys_afterCalls_append {c : KeyedCache α} {n : Nat} (hlimit : c.maxEntries = n) {uses : List Text}
    (hkeys : c.keys = uses.dedup.rtake n) (calls : List (CacheCall α)) :
    (c.afterCalls calls).keys = (uses ++ c.usedKeys calls).dedup.rtake n := by
  induction calls generalizing c uses with
  | nil => rw [afterCalls, usedKeys, List.append_nil, hkeys]
  | cons call calls ih =>
    obtain ⟨hlimit', hkeys'⟩ := keys_serve hlimit hkeys call
    rw [afterCalls, usedKeys, ih hlimit' hkeys', List.append_assoc]

/-- From the least to the most recently used, a cache that was new before the calls holds the last distinct keys, as many
as its limit says, of the calls that gave a value, in the order in which each key was last used. -/
theorem keys_afterCalls (ttl : Quantity) (n : Nat) (calls : List (CacheCall α)) :
    let c : KeyedCache α := { ttl, maxEntries := n }
    (c.afterCalls calls).keys = (c.usedKeys calls).dedup.rtake n := by
  intro c
  have hnew : c.keys = ([] : List Text).dedup.rtake n := by
    rw [List.dedup_nil, List.rtake_nil]
    rfl
  exact keys_afterCalls_append rfl hnew calls

-- "a" is found, "c" fails the first time, and "b" has expired when it is looked up again.
example :
    let call (now : Int) (key : Text) (outcome : Option Nat) : CacheCall Nat :=
      ⟨.whole now, key, [], outcome, nofun⟩
    let calls := [call 0 "a" (some 1), call 0 "b" (some 2), call 5 "a" (some 3), call 6 "c" none,
      call 20 "b" (some 4), call 20 "c" (some 5)]
    let c : KeyedCache Nat := { ttl := .whole 10, maxEntries := 2 }
    c.usedKeys calls = [("a" : Text), "b", "a", "b", "c"] ∧
      (c.afterCalls calls).keys = [("b" : Text), "c"] := by
  decide +kernel

end KeyedCache
end EditorInsight
