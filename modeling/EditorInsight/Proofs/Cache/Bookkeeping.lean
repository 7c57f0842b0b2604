import EditorInsight.Proofs.Cache.Recency

/-!
# What the statistics count

The operations of a run are listed in the order in which they end, those of a loader before the look-up that it
belongs to. A look-up is settled in the state that its loader leaves, whatever the loader has looked up or invalidated
meanwhile. So each operation adds its own outcome to the statistics and nothing else, and what holds of one operation
holds of a run.
-/

namespace EditorInsight

/-- What an operation turns out to be, as far as it is counted. -/
inductive CacheOutcome where
  /-- A look-up that was answered without its loader. -/
  | hit
  /-- A look-up whose loader gave a value, and whether it had found an expired entry of its key. -/
  | loaded (expired : Bool)
  | invalidated
  /-- Anything else, a look-up that failed included. -/
  | uncounted
  deriving DecidableEq

def CacheOutcome.isLoaded : CacheOutcome → Bool
  | loaded _ => true
  | _ => false

namespace Statistics

def record (s : Statistics) : CacheOutcome → Statistics
  | .hit => { s with hits := s.hits + 1 }
  | .loaded expired => KeyedCache.countLoad s expired
  | .invalidated => { s with invalidations := s.invalidations + 1 }
  | .uncounted => s

/-- The statistics are the numbers of outcomes of each kind. -/
structure Counts (s : Statistics) (outcomes : List CacheOutcome) : Prop where
  hits : s.hits = outcomes.count .hit
  loads : s.misses + s.staleRefreshes = outcomes.countP CacheOutcome.isLoaded
  refreshes : s.staleRefreshes = outcomes.count (.loaded true)
  invalidations : s.invalidations = outcomes.count .invalidated

theorem counts_nil : Counts {} [] := ⟨rfl, rfl, rfl, rfl⟩

theorem Counts.record {s : Statistics} {outcomes : List CacheOutcome} (h : s.Counts outcomes) (o : CacheOutcome) :
    (s.record o).Counts (outcomes ++ [o]) := by
  obtain ⟨hhits, hloads, hrefreshes, hinvalidations⟩ := h
  rcases o with - | (- | -) | - | -
  all_goals
    constructor <;>
      simp only [Statistics.record, KeyedCache.countLoad, List.count_append, List.countP_append, List.count_singleton,
        List.countP_singleton, CacheOutcome.isLoaded] <;>
      simp <;> omega

end Statistics

/-- An operation that is carried out: a step, and the state that it starts from. -/
structure CacheOperation (α : Type) where
  before : CacheRun α
  step : CacheStep α

namespace CacheRun

variable {α : Type}

/-- Whether an entry of the key is held that has expired. -/
def holdsExpired (s : CacheRun α) (key : Text) : Bool :=
  match s.cache.find? key with
  | some e => KeyedCache.isFresh s.cache.ttl s.now e.loadedAt = .ok false
  | none => false

mutual

/-- The operations of a step, in the order in which they end. -/
def operations (s : CacheRun α) : CacheStep α → List (CacheOperation α)
  | .get key during outcome =>
    (match s.cache.lookup key s.now with
      | .ok (.load _) => loaderOperations s during
      | _ => []) ++ [⟨s, .get key during outcome⟩]
  | t => [⟨s, t⟩]

def loaderOperations (s : CacheRun α) : List (CacheStep α) → List (CacheOperation α)
  | [] => []
  | t :: r => operations s t ++ match s.step t with
    | (_, .failed _) => []
    | (s', _) => loaderOperations s' r

end

def runOperations (s : CacheRun α) : List (CacheStep α) → List (CacheOperation α)
  | [] => []
  | t :: r => operations s t ++ runOperations (s.step t).1 r

end CacheRun

namespace CacheOperation

open KeyedCache

variable {α : Type}

def after (o : CacheOperation α) : CacheRun α := (o.before.step o.step).1

def answer (o : CacheOperation α) : CacheAnswer α := (o.before.step o.step).2

/-- The state that the loader leaves, or the one before if no loader is called. -/
def settledIn (o : CacheOperation α) : CacheRun α :=
  match o.step with
  | .get key during _ =>
    match o.before.cache.lookup key o.before.now with
    | .ok (.load _) => (o.before.loading during).1
    | _ => o.before
  | _ => o.before

def outcome (o : CacheOperation α) : CacheOutcome :=
  match o.step, o.answer with
  | .get _ _ _, .got _ none => .hit
  | .get key _ _, .got _ (some _) => .loaded (o.before.holdsExpired key)
  | .invalidate _, _ => .invalidated
  | _, _ => .uncounted

end CacheOperation

namespace CacheRun

variable {α : Type} {I : List (CacheOperation α) → CacheRun α → Prop}

mutual

theorem invariant_step (hI : ∀ h o, I h o.settledIn → I (h ++ [o]) o.after) (h : List (CacheOperation α))
    (s : CacheRun α) : (t : CacheStep α) → I h s → I (h ++ operations s t) (s.step t).1
  | .get key during outcome => by
    intro hs
    have hload := invariant_loader hI h s during hs
    have hget := fun h' => hI h' ⟨s, .get key during outcome⟩
    rw [operations]
    unfold CacheOperation.settledIn CacheOperation.after at hget
    dsimp only at hget
    split at hget
    · rw [← List.append_assoc]
      exact hget _ hload
    · exact hget h hs
  | .peek key => hI h ⟨s, .peek key⟩
  | .invalidate key => hI h ⟨s, .invalidate key⟩
  | .size => hI h ⟨s, .size⟩
  | .statistics => hI h ⟨s, .statistics⟩
  | .ttl => hI h ⟨s, .ttl⟩
  | .advance d => hI h ⟨s, .advance d⟩
  | .setClock now => hI h ⟨s, .setClock now⟩

theorem invariant_loader (hI : ∀ h o, I h o.settledIn → I (h ++ [o]) o.after) (h : List (CacheOperation α))
    (s : CacheRun α) : (during : List (CacheStep α)) → I h s →
      I (h ++ loaderOperations s during) (s.loading during).1
  | [] => by
    intro hs
    rw [loaderOperations, loading, List.append_nil]
    exact hs
  | t :: r => by
    intro hs
    have hstep := invariant_step hI h s t hs
    have hrest := fun s' => invariant_loader hI (h ++ operations s t) s' r
    rw [loaderOperations, loading]
    rcases hanswer : s.step t with ⟨s', a⟩
    rw [hanswer] at hstep
    cases a with
    | failed f =>
      rw [List.append_nil]
      exact hstep
    | _ =>
      rw [← List.append_assoc]
      exact hrest s' hstep

end

theorem invariant_run (hI : ∀ h o, I h o.settledIn → I (h ++ [o]) o.after) {h : List (CacheOperation α)}
    {s : CacheRun α} (hs : I h s) (steps : List (CacheStep α)) :
    I (h ++ runOperations s steps) (s.run steps).1 := by
  induction steps generalizing h s with
  | nil =>
    rw [runOperations, run, List.append_nil]
    exact hs
  | cons t r ih =>
    rw [runOperations, run, ← List.append_assoc]
    exact ih (invariant_step hI h s t hs)

end CacheRun

namespace CacheOperation

open KeyedCache

variable {α : Type} {o : CacheOperation α}

theorem holdsExpired_of_load {s : CacheRun α} {key : Text} {ticket : LoadTicket}
    (h : s.cache.lookup key s.now = .ok (.load ticket)) : ticket.isRefresh = s.holdsExpired key := by
  rcases lookup_eq_ok h with ⟨e, -, -, hfound⟩ | ⟨hfound, hexpired⟩
  · cases hfound
  · obtain rfl := CacheLookup.load.inj hfound
    unfold CacheRun.holdsExpired
    cases hfind : s.cache.find? key with
    | none => rfl
    | some e => simp [hexpired e hfind]

/-- All that an operation does to the cache that its loader leaves. -/
theorem after_cases (hlimit : 0 ≤ o.settledIn.cache.maxEntries) :
    (o.outcome = .uncounted ∧ o.after.cache = o.settledIn.cache) ∨
    (o.outcome = .hit ∧ ∃ key e, o.settledIn.cache.find? key = some e ∧
      o.after.cache = { o.settledIn.cache with
        entries := without o.settledIn.cache.entries key ++ [(key, e)]
        statistics := o.settledIn.cache.statistics.record .hit }) ∨
    (∃ ticket value, o.outcome = .loaded ticket.isRefresh ∧
      o.after.cache = o.settledIn.cache.settle ticket value) ∨
    (o.outcome = .invalidated ∧ ∃ key, o.after.cache = o.settledIn.cache.invalidate key) := by
  obtain ⟨s, t⟩ := o
  cases t with
  | invalidate key => exact .inr (.inr (.inr ⟨by simp [outcome], key, by simp [after, settledIn, CacheRun.step]⟩))
  | size => exact .inl ⟨by simp [outcome], by simp [after, settledIn, CacheRun.step]⟩
  | statistics => exact .inl ⟨by simp [outcome], by simp [after, settledIn, CacheRun.step]⟩
  | ttl => exact .inl ⟨by simp [outcome], by simp [after, settledIn, CacheRun.step]⟩
  | peek key => exact .inl ⟨by simp [outcome], s.cache_step_of_isPassive rfl⟩
  | advance d => exact .inl ⟨by simp [outcome], s.cache_step_of_isPassive rfl⟩
  | setClock now => exact .inl ⟨by simp [outcome], s.cache_step_of_isPassive rfl⟩
  | get key during result =>
    unfold settledIn at hlimit
    unfold outcome answer after settledIn CacheRun.step
    dsimp only at hlimit ⊢
    cases hlookup : s.cache.lookup key s.now with
    | error f => exact .inl ⟨rfl, rfl⟩
    | ok found =>
      rw [hlookup] at hlimit
      cases found with
      | hit value c =>
        rcases lookup_eq_ok hlookup with ⟨e, hfind, -, hfound⟩ | ⟨hfound, -⟩
        · cases hfound
          exact .inr (.inl ⟨rfl, key, e, hfind, rfl⟩)
        · cases hfound
      | load ticket =>
        dsimp only at hlimit ⊢
        rcases hload : s.loading during with ⟨s₁, answers, fault⟩
        rw [hload] at hlimit
        cases fault with
        | some fault => exact .inl ⟨rfl, rfl⟩
        | none =>
          cases result with
          | none => exact .inl ⟨rfl, rfl⟩
          | some value =>
            refine .inr (.inr (.inl ⟨ticket, value, ?_, rfl⟩))
            rw [holdsExpired_of_load hlookup]
            simp only [exhausts_eq_false hlimit]
            rfl

theorem after_of_failed (hlimit : 0 ≤ o.settledIn.cache.maxEntries) {fault : CacheFault}
    (h : o.answer = .failed fault) : o.after.cache = o.settledIn.cache := by
  have houtcome : o.outcome = .uncounted := by
    unfold outcome
    rw [h]
    cases hstep : o.step with
    | invalidate key =>
      rw [answer, hstep, CacheRun.step] at h
      cases h
    | _ => rfl
  rcases after_cases hlimit with ⟨-, hafter⟩ | ⟨hhit, -⟩ | ⟨ticket, value, hloaded, -⟩ | ⟨hinvalidated, -⟩
  · exact hafter
  · rw [houtcome] at hhit
    cases hhit
  · rw [houtcome] at hloaded
    cases hloaded
  · rw [houtcome] at hinvalidated
    cases hinvalidated

end CacheOperation

namespace KeyedCache

variable {α : Type} {c : KeyedCache α}

theorem statistics_settle (c : KeyedCache α) (ticket : LoadTicket) (value : α) :
    (c.settle ticket value).statistics = c.statistics.record (.loaded ticket.isRefresh) := by
  unfold settle
  simp only
  split <;> rfl

theorem size_eq (c : KeyedCache α) : c.size = c.keys.length := (List.length_map _).symm

theorem length_keys_renewed {key : Text} {e : CacheEntry α} (hnodup : c.keys.Nodup) (hfind : c.find? key = some e) :
    ((without c.entries key ++ [(key, e)]).map Prod.fst).length = c.keys.length := by
  have hlength := length_filter_concat hnodup key
  rw [if_pos (mem_keys_of_find? hfind)] at hlength
  rw [map_fst_without_append]
  exact hlength

theorem length_keys_settle_le {n : Nat} (hlimit : c.maxEntries = n) (hsize : c.keys.length ≤ n) (ticket : LoadTicket)
    (value : α) : (c.settle ticket value).keys.length ≤ n := by
  by_cases hgeneration : ticket.generation = c.generation
  · rw [keys_settle hgeneration, hlimit, Int.toNat_natCast]
    exact length_rtake_le _ n
  · unfold settle
    simp only
    rw [if_pos hgeneration]
    exact hsize

theorem keys_invalidate_sublist (c : KeyedCache α) (key : Option Text) :
    (c.invalidate key).keys.Sublist c.keys := by
  cases key with
  | none => exact List.nil_sublist _
  | some k => exact List.filter_sublist.map Prod.fst

end KeyedCache

namespace CacheRun

open KeyedCache

variable {α : Type} {n : Nat} {h : List (CacheOperation α)} {o : CacheOperation α}

/-- The statistics count the operations, and are reported with the number of entries; the cache holds no more of
these than it may, each under a key of its own. -/
structure Bookkept (n : Nat) (h : List (CacheOperation α)) (s : CacheRun α) : Prop where
  maxEntries_eq : s.cache.maxEntries = n
  counts : s.cache.statistics.Counts (h.map CacheOperation.outcome)
  reported : (s.step .statistics).2 = .statistics s.cache.statistics s.cache.keys.length
  keys_nodup : s.cache.keys.Nodup
  size_le : s.cache.keys.length ≤ n

theorem reported_eq (s : CacheRun α) :
    (s.step .statistics).2 = .statistics s.cache.statistics s.cache.keys.length := by
  rw [step, size_eq]

theorem bookkept_new (ttl now : Quantity) (n : Nat) : Bookkept n [] (⟨{ ttl, maxEntries := n }, now⟩ : CacheRun α) :=
  ⟨rfl, Statistics.counts_nil, reported_eq _, List.nodup_nil, Nat.zero_le n⟩

theorem Bookkept.limit_nonneg {s : CacheRun α} (hs : s.Bookkept n h) : 0 ≤ s.cache.maxEntries := by
  rw [hs.maxEntries_eq]
  exact Int.natCast_nonneg n

theorem Bookkept.after (hs : o.settledIn.Bookkept n h) : o.after.Bookkept n (h ++ [o]) := by
  have hcounts := hs.counts.record o.outcome
  rw [← List.map_singleton, ← List.map_append] at hcounts
  rcases CacheOperation.after_cases hs.limit_nonneg with
    ⟨houtcome, hafter⟩ | ⟨houtcome, key, e, hfind, hafter⟩ | ⟨ticket, value, houtcome, hafter⟩ |
      ⟨houtcome, key, hafter⟩
  · rw [houtcome, ← hafter] at hcounts
    refine ⟨?_, hcounts, reported_eq _, ?_, ?_⟩ <;> rw [hafter]
    · exact hs.maxEntries_eq
    · exact hs.keys_nodup
    · exact hs.size_le
  · rw [houtcome] at hcounts
    refine ⟨?_, ?_, reported_eq _, ?_, ?_⟩ <;> rw [hafter]
    · exact hs.maxEntries_eq
    · exact hcounts
    · exact keys_nodup_without_append hs.keys_nodup key e
    · exact (length_keys_renewed hs.keys_nodup hfind).trans_le hs.size_le
  · rw [houtcome, ← statistics_settle _ ticket value, ← hafter] at hcounts
    refine ⟨?_, hcounts, reported_eq _, ?_, ?_⟩ <;> rw [hafter]
    · rw [maxEntries_settle, hs.maxEntries_eq]
    · exact keys_nodup_settle hs.keys_nodup ticket value
    · exact length_keys_settle_le hs.maxEntries_eq hs.size_le ticket value
  · have hfewer := o.settledIn.cache.keys_invalidate_sublist key
    rw [houtcome] at hcounts
    refine ⟨?_, ?_, reported_eq _, ?_, ?_⟩ <;> rw [hafter]
    · exact hs.maxEntries_eq
    · exact hcounts
    · exact hs.keys_nodup.sublist hfewer
    · exact hfewer.length_le.trans hs.size_le

end CacheRun

/-! Caches with one slot. -/

/-- An operation on a cache with one slot, and the state that it starts from. -/
structure SlotOperation where
  before : SlotRun
  step : SlotStep

namespace SlotRun

def holdsExpired (s : SlotRun) (key : Text) : Bool :=
  match s.cache.slot with
  | some e => e.key = key ∧ KeyedCache.isFresh s.cache.ttl s.now e.loadedAt = .ok false
  | none => false

def runOperations (s : SlotRun) : List SlotStep → List SlotOperation
  | [] => []
  | t :: r => ⟨s, t⟩ :: runOperations (s.step t).1 r

end SlotRun

namespace SlotOperation

def after (o : SlotOperation) : SlotRun := (o.before.step o.step).1

def answer (o : SlotOperation) : SlotAnswer := (o.before.step o.step).2

def outcome (o : SlotOperation) : CacheOutcome :=
  match o.step, o.answer with
  | .get _ _, .got _ false => .hit
  | .get key _, .got _ true => .loaded (o.before.holdsExpired key)
  | .invalidate _, _ => .invalidated
  | _, _ => .uncounted

theorem holdsExpired_of_load {s : SlotRun} {key : Text} {ticket : SlotTicket}
    (h : s.cache.lookup key s.now = .ok (.load ticket)) : ticket.isRefresh = s.holdsExpired key := by
  rcases SlotCache.lookup_eq_ok h with ⟨e, -, hfound⟩ | ⟨isRefresh, hfound, hiff⟩
  · cases hfound
  · obtain rfl := SlotLookup.load.inj hfound
    rw [Bool.eq_iff_iff]
    refine hiff.trans ?_
    unfold SlotRun.holdsExpired
    cases s.cache.slot <;> simp

theorem statistics_after (o : SlotOperation) :
    o.after.cache.statistics = o.before.cache.statistics.record o.outcome := by
  obtain ⟨s, t⟩ := o
  cases t with
  | invalidate key => rfl
  | statistics => rfl
  | setClock now => rfl
  | advance d =>
    unfold after outcome answer SlotRun.step
    dsimp only
    cases s.now.add d <;> rfl
  | get key result =>
    unfold after outcome answer SlotRun.step
    dsimp only
    cases hlookup : s.cache.lookup key s.now with
    | error f => rfl
    | ok found =>
      cases found with
      | hit names c =>
        rcases SlotCache.lookup_eq_ok hlookup with ⟨e, -, hfound⟩ | ⟨isRefresh, hfound, -⟩
        · cases hfound
          rfl
        · cases hfound
      | load ticket =>
        cases result with
        | none => rfl
        | some names =>
          dsimp only
          rw [← holdsExpired_of_load hlookup]
          rfl

theorem after_of_failed {o : SlotOperation} {fault : CacheFault} (h : o.answer = .failed fault) :
    o.after = o.before := by
  obtain ⟨s, t⟩ := o
  cases t with
  | invalidate key => cases h
  | statistics => rfl
  | setClock now => cases h
  | advance d =>
    unfold answer SlotRun.step at h
    unfold after SlotRun.step
    dsimp only at h ⊢
    cases hclock : s.now.add d with
    | error f => rfl
    | ok now =>
      rw [hclock] at h
      cases h
  | get key result =>
    unfold answer SlotRun.step at h
    unfold after SlotRun.step
    dsimp only at h ⊢
    cases hlookup : s.cache.lookup key s.now with
    | error f => rfl
    | ok found =>
      rw [hlookup] at h
      cases found with
      | hit names c => cases h
      | load ticket =>
        cases result with
        | none => rfl
        | some names => cases h

end SlotOperation

namespace SlotRun

/-- The statistics count the operations, and are reported with the number of entries, which is at most one. -/
structure Bookkept (h : List SlotOperation) (s : SlotRun) : Prop where
  counts : s.cache.statistics.Counts (h.map SlotOperation.outcome)
  reported : (s.step .statistics).2 = .statistics s.cache.statistics s.cache.slot.toList.length
  size_le : s.cache.slot.toList.length ≤ 1

theorem bookkept_of_counts {s : SlotRun} {h : List SlotOperation}
    (hcounts : s.cache.statistics.Counts (h.map SlotOperation.outcome)) : s.Bookkept h := by
  refine ⟨hcounts, ?_, ?_⟩
  · rw [step, SlotCache.size]
    cases s.cache.slot <;> rfl
  · cases s.cache.slot <;> simp

theorem bookkept_new (ttl now : Quantity) : Bookkept [] ⟨{ ttl }, now⟩ := bookkept_of_counts Statistics.counts_nil

theorem Bookkept.after {o : SlotOperation} {h : List SlotOperation} (hs : o.before.Bookkept h) :
    o.after.Bookkept (h ++ [o]) := by
  apply bookkept_of_counts
  rw [o.statistics_after, List.map_append, List.map_singleton]
  exact hs.counts.record o.outcome

end SlotRun

/-! Whole runs. -/

theorem forall_getElem?_concat {ω : Type} {P : List ω → ω → Prop} {h : List ω} {o : ω}
    (hh : ∀ (i : Nat) x, h[i]? = some x → P (h.take (i + 1)) x) (ho : P (h ++ [o]) o) (i : Nat) (x : ω)
    (hx : (h ++ [o])[i]? = some x) : P ((h ++ [o]).take (i + 1)) x := by
  rcases Nat.lt_trichotomy i h.length with hlt | rfl | hgt
  · rw [List.getElem?_append_left hlt] at hx
    rw [List.take_append_of_le_length hlt]
    exact hh i x hx
  · rw [List.getElem?_concat_length] at hx
    rw [List.take_of_length_le (by simp), ← Option.some.inj hx]
    exact ho
  · rw [List.getElem?_eq_none (by simp; omega)] at hx
    cases hx

theorem CacheRun.bookkept_run {α : Type} {n : Nat} {s : CacheRun α} (hs : s.Bookkept n [])
    (steps : List (CacheStep α)) :
    (s.run steps).1.Bookkept n (s.runOperations steps) ∧
      ∀ (i : Nat) o, (s.runOperations steps)[i]? = some o → o.after.Bookkept n ((s.runOperations steps).take (i + 1)) ∧
        0 ≤ o.settledIn.cache.maxEntries := by
  refine invariant_run (I := fun h s => s.Bookkept n h ∧ ∀ (i : Nat) o, h[i]? = some o →
    o.after.Bookkept n (h.take (i + 1)) ∧ 0 ≤ o.settledIn.cache.maxEntries) ?_ ⟨hs, by simp⟩ steps
  rintro h o ⟨hsettled, hearlier⟩
  refine ⟨hsettled.after, ?_⟩
  exact forall_getElem?_concat
    (P := fun h (o : CacheOperation α) => o.after.Bookkept n h ∧ 0 ≤ o.settledIn.cache.maxEntries) hearlier
    ⟨hsettled.after, hsettled.limit_nonneg⟩

theorem SlotRun.bookkept_run {s : SlotRun} {h : List SlotOperation} (hs : s.Bookkept h)
    (hearlier : ∀ (i : Nat) o, h[i]? = some o → o.after.Bookkept (h.take (i + 1))) (steps : List SlotStep) :
    (s.run steps).1.Bookkept (h ++ s.runOperations steps) ∧
      ∀ (i : Nat) o, (h ++ s.runOperations steps)[i]? = some o →
        o.after.Bookkept ((h ++ s.runOperations steps).take (i + 1)) := by
  induction steps generalizing s h with
  | nil =>
    rw [runOperations, List.append_nil]
    exact ⟨hs, hearlier⟩
  | cons t r ih =>
    have hafter : (SlotOperation.mk s t).after.Bookkept (h ++ [⟨s, t⟩]) := Bookkept.after hs
    rw [runOperations, run, ← List.singleton_append, ← List.append_assoc]
    exact ih hafter
      (forall_getElem?_concat (P := fun h (o : SlotOperation) => o.after.Bookkept h) hearlier hafter)

/-- In every run from an empty cache, at its end and after each operation, those inside loaders included, the
statistics count the operations that have ended by then: the look-ups answered without a loader, those whose loader
gave a value, the ones among them that had found an expired entry of their key, and the invalidations. They are
reported with the number of entries held, which stays within the limit. An operation that fails leaves the cache as
its loader left it. -/
theorem cache_bookkeeping_exact {α : Type} (ttl now : Quantity) :
    (∀ (n : Nat) (steps : List (CacheStep α)),
      let s : CacheRun α := ⟨{ ttl, maxEntries := n }, now⟩
      let ops := s.runOperations steps
      (s.run steps).1.Bookkept n ops ∧ ∀ (i : Nat) o, ops[i]? = some o →
        o.after.Bookkept n (ops.take (i + 1)) ∧
        ∀ fault, o.answer = .failed fault → o.after.cache = o.settledIn.cache) ∧
    ∀ steps : List SlotStep,
      let s : SlotRun := ⟨{ ttl }, now⟩
      let ops := s.runOperations steps
      (s.run steps).1.Bookkept ops ∧ ∀ (i : Nat) o, ops[i]? = some o →
        o.after.Bookkept (ops.take (i + 1)) ∧
        ∀ fault, o.answer = .failed fault → o.after.cache = o.before.cache := by
  refine ⟨fun n steps => ?_, fun steps => ?_⟩
  · intro s ops
    obtain ⟨hrun, hops⟩ := CacheRun.bookkept_run (CacheRun.bookkept_new ttl now n) steps
    refine ⟨hrun, fun i o ho => ?_⟩
    obtain ⟨hafter, hlimit⟩ := hops i o ho
    exact ⟨hafter, fun fault => CacheOperation.after_of_failed hlimit⟩
  · intro s ops
    obtain ⟨hrun, hops⟩ := SlotRun.bookkept_run (SlotRun.bookkept_new ttl now) (by simp) steps
    refine ⟨hrun, fun i o ho => ⟨hops i o ho, fun fault hfault => ?_⟩⟩
    rw [SlotOperation.after_of_failed hfault]

/-- A loader that looks another key up and invalidates, so that its own value is not kept; a loader that fails because
of one that it calls; an expired entry that is loaded anew, and one that is found. -/
def nestedLoads : List (CacheStep Nat) :=
  [.get "a" [.get "b" [] (some 1), .invalidate (some "z")] (some 2), .advance (.whole 10),
    .get "b" [.get "c" [] none] (some 3), .get "b" [] (some 4), .get "b" [] none]

theorem cache_bookkeeping_exact_nested :
    let s : CacheRun Nat := ⟨{ ttl := .whole 10, maxEntries := 1 }, .whole 0⟩
    let ops := s.runOperations nestedLoads
    ops.map CacheOperation.outcome = [.loaded false, .invalidated, .loaded false, .uncounted, .uncounted, .uncounted,
      .loaded true, .hit] ∧
    (s.run nestedLoads).1.Bookkept 1 ops ∧ (s.run nestedLoads).1.cache.statistics = ⟨1, 2, 1, 1⟩ ∧
    ∃ o fault, ops[5]? = some o ∧ o.answer = .failed fault ∧ o.after.Bookkept 1 (ops.take 6) ∧
      o.after.cache = o.settledIn.cache := by
  intro s ops
  obtain ⟨hrun, hops⟩ := (cache_bookkeeping_exact (.whole 10) (.whole 0)).1 1 nestedLoads
  obtain ⟨o, ho⟩ : ∃ o, ops[5]? = some o := Option.isSome_iff_exists.mp (by decide +kernel)
  obtain ⟨fault, hfault⟩ : ∃ fault, o.answer = .failed fault := by
    have hfails : (ops[5]?.bind fun o => CacheRun.fault? o.answer) = some .loaderFailed := by decide +kernel
    rw [ho] at hfails
    change CacheRun.fault? o.answer = _ at hfails
    cases hanswer : o.answer with
    | failed fault => exact ⟨fault, rfl⟩
    | _ =>
      rw [hanswer] at hfails
      cases hfails
  obtain ⟨hafter, hkept⟩ := hops 5 o ho
  exact ⟨by decide +kernel, hrun, by decide +kernel, o, fault, ho, hfault, hafter, hkept fault hfault⟩

end EditorInsight
