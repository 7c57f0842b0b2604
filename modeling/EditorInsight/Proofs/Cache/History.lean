import EditorInsight.Cache.Script
import EditorInsight.Data.OrderedMap
import EditorInsight.Proofs.Cache.Entries
import EditorInsight.Proofs.Numeric.Rounding

/-!
# What a cache serves

A run leaves a history: which loaders began and ended, what was served without a loader, and what was
invalidated, also while other loaders ran. Whatever is served was given by a loader that began a short while
ago, with no invalidation since; and as long as the clock goes forward it was the last such loader to end.
-/

namespace EditorInsight

/-- What happens in a run of cache operations. -/
inductive CacheEvent (α : Type) where
  /-- A look-up read the clock, found nothing fresh and called its loader. -/
  | began (key : Text) (now : Quantity)
  /-- The loader of the look-up that is event number `start` gave a value. -/
  | loaded (start : Nat) (value : α)
  /-- A look-up or a peek read the clock and answered without a loader. -/
  | served (key : Text) (now : Quantity) (value : α)
  | invalidated (key : Option Text)
  deriving DecidableEq

namespace CacheRun

variable {α : Type}

def ending (start : Nat) : Option CacheFault → Option α → List (CacheEvent α)
  | none, some value => [.loaded start value]
  | _, _ => []

mutual

/-- The history after a step, given the one before it. -/
def record (h : List (CacheEvent α)) (s : CacheRun α) : CacheStep α → List (CacheEvent α)
  | .get key during outcome =>
    match (s.step (.get key during outcome)).2, s.cache.lookup key s.now with
    | .got value none, _ => h ++ [.served key s.now value]
    | _, .ok (.load _) =>
      recordLoading (h ++ [.began key s.now]) s during ++ ending h.length (s.loading during).2.2 outcome
    | _, _ => h
  | .peek key =>
    match (s.step (.peek key)).2 with
    | .peeked (some value) => h ++ [.served key s.now value]
    | _ => h
  | .invalidate key => h ++ [.invalidated key]
  | _ => h

def recordLoading (h : List (CacheEvent α)) (s : CacheRun α) : List (CacheStep α) → List (CacheEvent α)
  | [] => h
  | t :: r =>
    match s.step t with
    | (_, .failed _) => record h s t
    | (s', _) => recordLoading (record h s t) s' r

end

def recordRun (h : List (CacheEvent α)) (s : CacheRun α) : List (CacheStep α) → List (CacheEvent α)
  | [] => h
  | t :: r => recordRun (record h s t) (s.step t).1 r

end CacheRun

namespace KeyedCache

variable {α : Type} {c : KeyedCache α} {key : Text} {now : Quantity}

/-- All that a look-up can do when the age of what it finds can be told. -/
theorem lookup_eq_ok {found : CacheLookup α} (h : c.lookup key now = .ok found) :
    (∃ e, c.find? key = some e ∧ isFresh c.ttl now e.loadedAt = .ok true ∧
      found = .hit e.value { c with
        entries := without c.entries key ++ [(key, e)]
        statistics := { c.statistics with hits := c.statistics.hits + 1 } }) ∨
    (found = .load ⟨key, now, c.generation, (c.find? key).isSome⟩ ∧
      ∀ e, c.find? key = some e → isFresh c.ttl now e.loadedAt = .ok false) := by
  unfold lookup at h
  cases hfind : c.find? key with
  | none =>
    rw [hfind] at h
    exact .inr ⟨(Except.ok.inj h).symm, nofun⟩
  | some e =>
    rw [hfind] at h
    cases hfresh : isFresh c.ttl now e.loadedAt with
    | error f =>
      simp only [hfresh] at h
      cases h
    | ok fresh =>
      simp only [hfresh] at h
      cases fresh with
      | true => exact .inl ⟨e, rfl, hfresh, (Except.ok.inj h).symm⟩
      | false =>
        refine .inr ⟨(Except.ok.inj h).symm, fun e' he' => ?_⟩
        rw [← Option.some.inj he']
        exact hfresh

theorem find?_eq_of_peek? {value : α} (h : c.peek? key now = .ok (some value)) :
    ∃ e, c.find? key = some e ∧ isFresh c.ttl now e.loadedAt = .ok true ∧ e.value = value := by
  unfold peek? at h
  cases hfind : c.find? key with
  | none =>
    rw [hfind] at h
    cases h
  | some e =>
    rw [hfind] at h
    cases hfresh : isFresh c.ttl now e.loadedAt with
    | error f =>
      simp only [hfresh] at h
      cases h
    | ok fresh =>
      simp only [hfresh] at h
      cases fresh with
      | false => cases h
      | true =>
        cases h
        exact ⟨e, rfl, hfresh, rfl⟩

end KeyedCache

namespace CacheRun

open KeyedCache

variable {α : Type}

/-- How histories and states go on together. A look-up is answered from the cache, and makes its entry the most
recent one, or its loader fails, or its loader gives a value. -/
inductive Proceeds : List (CacheEvent α) → CacheRun α → List (CacheEvent α) → CacheRun α → Prop
  | refl (h : List (CacheEvent α)) (s : CacheRun α) : Proceeds h s h s
  | trans {h h₁ h₂ : List (CacheEvent α)} {s s₁ s₂ : CacheRun α} (first : Proceeds h s h₁ s₁)
    (second : Proceeds h₁ s₁ h₂ s₂) : Proceeds h s h₂ s₂
  | advance (h : List (CacheEvent α)) (s : CacheRun α) (now : Quantity) : Proceeds h s h { s with now }
  | invalidate (h : List (CacheEvent α)) (s : CacheRun α) (key : Option Text) :
    Proceeds h s (h ++ [.invalidated key]) { s with cache := s.cache.invalidate key }
  | serve (h : List (CacheEvent α)) (s : CacheRun α) {key : Text} {e : CacheEntry α}
    (hfind : s.cache.find? key = some e) (hfresh : isFresh s.cache.ttl s.now e.loadedAt = .ok true) :
    Proceeds h s (h ++ [.served key s.now e.value]) s
  | renew (h : List (CacheEvent α)) (s : CacheRun α) {key : Text} {e : CacheEntry α}
    (hfind : s.cache.find? key = some e) (statistics : Statistics) :
    Proceeds h s h { s with cache := { s.cache with
      entries := without s.cache.entries key ++ [(key, e)], statistics } }
  | fail {h h₁ : List (CacheEvent α)} {s s₁ : CacheRun α} {key : Text} {ticket : LoadTicket}
    (hlookup : s.cache.lookup key s.now = .ok (.load ticket))
    (during : Proceeds (h ++ [.began key s.now]) s h₁ s₁) : Proceeds h s h₁ s₁
  | load {h h₁ : List (CacheEvent α)} {s s₁ : CacheRun α} {key : Text} {ticket : LoadTicket}
    (hlookup : s.cache.lookup key s.now = .ok (.load ticket))
    (during : Proceeds (h ++ [.began key s.now]) s h₁ s₁) (value : α) :
    Proceeds h s (h₁ ++ [.loaded h.length value]) { s₁ with cache := s₁.cache.settle ticket value }

theorem proceeds_get (h : List (CacheEvent α)) (s : CacheRun α) (key : Text) (during : List (CacheStep α))
    (outcome : Option α) (hduring : Proceeds (h ++ [.began key s.now]) s
      (recordLoading (h ++ [.began key s.now]) s during) (s.loading during).1) :
    Proceeds h s (record h s (.get key during outcome)) (s.step (.get key during outcome)).1 := by
  rw [record]
  unfold step
  cases hlookup : s.cache.lookup key s.now with
  | error f => exact .refl h s
  | ok found =>
    cases found with
    | hit value c =>
      rcases lookup_eq_ok hlookup with ⟨e, hfind, hfresh, hfound⟩ | ⟨hfound, -⟩
      · cases hfound
        exact (Proceeds.serve h s hfind hfresh).trans (.renew _ s hfind _)
      · cases hfound
    | load ticket =>
      rcases hload : s.loading during with ⟨s₁, answers, fault⟩
      rw [hload] at hduring
      cases fault with
      | some fault =>
        dsimp only [ending]
        rw [List.append_nil]
        exact .fail hlookup hduring
      | none =>
        cases outcome with
        | none =>
          dsimp only [ending]
          rw [List.append_nil]
          exact .fail hlookup hduring
        | some value =>
          have hloaded := Proceeds.load hlookup hduring value
          dsimp only [ending]
          cases s₁.cache.exhausts ticket <;> exact hloaded

mutual

theorem proceeds_step (h : List (CacheEvent α)) (s : CacheRun α) :
    (t : CacheStep α) → Proceeds h s (record h s t) (s.step t).1
  | .get key during outcome => proceeds_get h s key during outcome (proceeds_loading _ s during)
  | .peek key => by
    rw [record]
    unfold step
    cases hpeek : s.cache.peek? key s.now with
    | error f => exact .refl h s
    | ok found =>
      cases found with
      | none => exact .refl h s
      | some value =>
        obtain ⟨e, hfind, hfresh, rfl⟩ := find?_eq_of_peek? hpeek
        exact .serve h s hfind hfresh
  | .invalidate key => by
    rw [record, step]
    exact .invalidate h s key
  | .size => by
    rw [record, step]
    · exact .refl h s
    all_goals nofun
  | .statistics => by
    rw [record, step]
    · exact .refl h s
    all_goals nofun
  | .ttl => by
    rw [record, step]
    · exact .refl h s
    all_goals nofun
  | .advance d => by
    rw [record]
    · unfold step
      cases s.now.add d with
      | error f => exact .refl h s
      | ok now => exact .advance h s now
    all_goals nofun
  | .setClock now => by
    rw [record, step]
    · exact .advance h s now
    all_goals nofun

theorem proceeds_loading (h : List (CacheEvent α)) (s : CacheRun α) :
    (during : List (CacheStep α)) → Proceeds h s (recordLoading h s during) (s.loading during).1
  | [] => by
    rw [recordLoading, loading]
    exact .refl h s
  | t :: r => by
    have hstep := proceeds_step h s t
    rw [recordLoading, loading]
    rcases hanswer : s.step t with ⟨s', a⟩
    rw [hanswer] at hstep
    have hrest := hstep.trans (proceeds_loading (record h s t) s' r)
    cases a with
    | failed f => exact hstep
    | _ => exact hrest

end

theorem proceeds_run (h : List (CacheEvent α)) (s : CacheRun α) (steps : List (CacheStep α)) :
    Proceeds h s (recordRun h s steps) (s.run steps).1 := by
  induction steps generalizing h s with
  | nil => exact .refl h s
  | cons t r ih => exact (proceeds_step h s t).trans (ih (record h s t) (s.step t).1)

theorem Proceeds.exists_append {h h' : List (CacheEvent α)} {s s' : CacheRun α} (hp : Proceeds h s h' s') :
    ∃ es, h' = h ++ es ∧ ∀ start value, .loaded start value ∈ es → h.length ≤ start := by
  induction hp with
  | refl h s => exact ⟨[], (List.append_nil h).symm, nofun⟩
  | advance h s now => exact ⟨[], (List.append_nil h).symm, nofun⟩
  | renew h s hfind statistics => exact ⟨[], (List.append_nil h).symm, nofun⟩
  | invalidate h s key => exact ⟨[_], rfl, by simp⟩
  | serve h s hfind hfresh => exact ⟨[_], rfl, by simp⟩
  | trans first second ihfirst ihsecond =>
    obtain ⟨es, rfl, hes⟩ := ihfirst
    obtain ⟨es', rfl, hes'⟩ := ihsecond
    refine ⟨es ++ es', List.append_assoc _ _ _, fun start value hmem => ?_⟩
    rcases List.mem_append.mp hmem with hmem | hmem
    · exact hes start value hmem
    · have := hes' start value hmem
      rw [List.length_append] at this
      omega
  | fail hlookup during ih =>
    obtain ⟨es, rfl, hes⟩ := ih
    refine ⟨_ :: es, List.append_assoc _ _ _, fun start value hmem => ?_⟩
    have := hes start value (by simpa using hmem)
    rw [List.length_append] at this
    omega
  | load hlookup during value ih =>
    obtain ⟨es, rfl, hes⟩ := ih
    refine ⟨[_] ++ es ++ [_], by rw [List.append_assoc, List.append_assoc, List.append_assoc], ?_⟩
    intro start value' hmem
    rw [List.mem_append, List.mem_append] at hmem
    rcases hmem with (hmem | hmem) | hmem
    · cases List.mem_singleton.mp hmem
    · have := hes start value' hmem
      rw [List.length_append] at this
      omega
    · cases List.mem_singleton.mp hmem
      exact le_refl _

end CacheRun

/-! What the history says about the entries. -/

namespace CacheEvent

variable {α : Type} {h : List (CacheEvent α)} {key : Text} {ts : Quantity} {v : α} {j m : Nat}

/-- The loader that began as event `j`, for the key, gave the value as event `m`. -/
def LoadedAt (h : List (CacheEvent α)) (key : Text) (ts : Quantity) (v : α) (j m : Nat) : Prop :=
  j < m ∧ h[j]? = some (.began key ts) ∧ h[m]? = some (.loaded j v)

instance [DecidableEq α] : Decidable (LoadedAt h key ts v j m) :=
  inferInstanceAs (Decidable (_ ∧ _ ∧ _))

def isInvalidation : CacheEvent α → Bool
  | invalidated _ => true
  | _ => false

/-- The value of a loader can be kept under the key to the end of the history: nothing about the key has been
invalidated since the loader began, and each time the key was loaded again the value had expired. -/
structure Backs (ttl : Quantity) (h : List (CacheEvent α)) (key : Text) (ts : Quantity) (v : α) (j m : Nat) :
    Prop where
  loadedAt : LoadedAt h key ts v j m
  spared : ∀ l k, j < l → h[l]? = some (.invalidated k) → k ≠ none ∧ k ≠ some key
  expired : ∀ l r, m < l → h[l]? = some (.began key r) → KeyedCache.isFresh ttl r ts = .ok false

theorem eq_of_getElem?_concat {e x : CacheEvent α} {l : Nat} (hl : (h ++ [e])[l]? = some x) :
    h[l]? = some x ∨ (l = h.length ∧ e = x) := by
  rcases lt_trichotomy l h.length with hlt | rfl | hgt
  · rw [List.getElem?_append_left hlt] at hl
    exact .inl hl
  · rw [List.getElem?_concat_length] at hl
    exact .inr ⟨rfl, Option.some.inj hl⟩
  · rw [List.getElem?_eq_none (by simp; omega)] at hl
    cases hl

theorem LoadedAt.append (hload : LoadedAt h key ts v j m) (es : List (CacheEvent α)) :
    LoadedAt (h ++ es) key ts v j m := by
  obtain ⟨hlt, hbegan, hloaded⟩ := hload
  have hm : m < h.length := (List.getElem?_eq_some_iff.mp hloaded).1
  refine ⟨hlt, ?_, ?_⟩
  · rw [List.getElem?_append_left (by omega)]
    exact hbegan
  · rw [List.getElem?_append_left hm]
    exact hloaded

theorem Backs.concat {ttl : Quantity} (hb : Backs ttl h key ts v j m) {e : CacheEvent α}
    (hspared : ∀ k, e = .invalidated k → k ≠ none ∧ k ≠ some key)
    (hexpired : ∀ r, e = .began key r → KeyedCache.isFresh ttl r ts = .ok false) :
    Backs ttl (h ++ [e]) key ts v j m where
  loadedAt := hb.loadedAt.append [e]
  spared l k hl hk := by
    rcases eq_of_getElem?_concat hk with hk | ⟨-, he⟩
    · exact hb.spared l k hl hk
    · exact hspared k he
  expired l r hl hr := by
    rcases eq_of_getElem?_concat hr with hr | ⟨-, he⟩
    · exact hb.expired l r hl hr
    · exact hexpired r he

theorem backs_loaded (ttl : Quantity) (h es : List (CacheEvent α)) (key : Text) (ts : Quantity) (v : α)
    (hes : es.countP isInvalidation = 0) :
    Backs ttl (h ++ [began key ts] ++ es ++ [loaded h.length v]) key ts v h.length
      (h ++ [began key ts] ++ es).length where
  loadedAt := by
    refine ⟨?_, ?_, List.getElem?_concat_length⟩
    · simp only [List.length_append, List.length_singleton]
      omega
    · simp
  spared l k hl hk := by
    rcases eq_of_getElem?_concat hk with hk | ⟨-, he⟩
    · have hmem : CacheEvent.invalidated k ∈ es := by
        rw [List.getElem?_append_right (by simp; omega)] at hk
        exact List.mem_of_getElem? hk
      exact absurd rfl (List.countP_eq_zero.mp hes _ hmem)
    · cases he
  expired l r hl hr := by
    rcases eq_of_getElem?_concat hr with hr | ⟨-, he⟩
    · have := (List.getElem?_eq_some_iff.mp hr).1
      omega
    · cases he

/-- The history accounts for what is in the cache and for what has been served from it. -/
structure Accounts (ttl : Quantity) (generation : Nat) (h : List (CacheEvent α)) (c : KeyedCache α) :
    Prop where
  ttl_eq : c.ttl = ttl
  generation_eq : c.generation = generation + h.countP isInvalidation
  keys_nodup : (c.entries.map Prod.fst).Nodup
  entries : ∀ x ∈ c.entries, ∃ j m, Backs ttl h x.1 x.2.loadedAt x.2.value j m
  served : ∀ i key r v, h[i]? = some (.served key r v) →
    ∃ ts j m, Backs ttl (h.take i) key ts v j m ∧ KeyedCache.isFresh ttl r ts = .ok true
  start_lt : ∀ start v, .loaded start v ∈ h → start < h.length
  loaded_once : ∀ (start m m' : Nat) (v v' : α), h[m]? = some (.loaded start v) → h[m']? = some (.loaded start v') →
    m = m'

theorem accounts_nil {c : KeyedCache α} (h : c.entries = []) : Accounts c.ttl c.generation [] c where
  ttl_eq := rfl
  generation_eq := rfl
  keys_nodup := by
    rw [h]
    exact List.nodup_nil
  entries x hx := by
    rw [h] at hx
    cases hx
  served i key r v hi := by cases hi
  start_lt start v hmem := by cases hmem
  loaded_once start m m' v v' hm := by cases hm

theorem Accounts.concat {ttl : Quantity} {generation : Nat} {c c' : KeyedCache α}
    (ha : Accounts ttl generation h c) {e : CacheEvent α} (httl : c'.ttl = c.ttl)
    (hgeneration : c'.generation = c.generation + [e].countP isInvalidation)
    (hnodup : (c'.entries.map Prod.fst).Nodup)
    (hentries : ∀ x ∈ c'.entries, ∃ j m, Backs ttl (h ++ [e]) x.1 x.2.loadedAt x.2.value j m)
    (hserved : ∀ key r v, e = .served key r v →
      ∃ ts j m, Backs ttl h key ts v j m ∧ KeyedCache.isFresh ttl r ts = .ok true)
    (hloaded : ∀ start v, e = .loaded start v → start < h.length ∧ ∀ v', .loaded start v' ∉ h) :
    Accounts ttl generation (h ++ [e]) c' where
  ttl_eq := httl.trans ha.ttl_eq
  generation_eq := by
    rw [hgeneration, ha.generation_eq, List.countP_append, Nat.add_assoc]
  keys_nodup := hnodup
  entries := hentries
  served i key r v hi := by
    rcases eq_of_getElem?_concat hi with hi | ⟨rfl, he⟩
    · have hlt : i < h.length := (List.getElem?_eq_some_iff.mp hi).1
      rw [List.take_append_of_le_length hlt.le]
      exact ha.served i key r v hi
    · rw [List.take_left]
      exact hserved key r v he
  start_lt start v hmem := by
    rw [List.length_append, List.length_singleton]
    rcases List.mem_append.mp hmem with hmem | hmem
    · exact (ha.start_lt start v hmem).trans (Nat.lt_succ_self _)
    · exact (hloaded start v (List.mem_singleton.mp hmem).symm).1.trans (Nat.lt_succ_self _)
  loaded_once start m m' v v' hm hm' := by
    rcases eq_of_getElem?_concat hm with hm | ⟨rfl, he⟩
    · rcases eq_of_getElem?_concat hm' with hm' | ⟨-, he'⟩
      · exact ha.loaded_once start m m' v v' hm hm'
      · exact absurd (List.mem_of_getElem? hm) ((hloaded start v' he').2 v)
    · rcases eq_of_getElem?_concat hm' with hm' | ⟨rfl, -⟩
      · exact absurd (List.mem_of_getElem? hm') ((hloaded start v he).2 v')
      · rfl

end CacheEvent

namespace KeyedCache

variable {α : Type}

theorem keys_nodup_without_append {entries : List (Text × CacheEntry α)} (h : (entries.map Prod.fst).Nodup)
    (key : Text) (e : CacheEntry α) : ((without entries key ++ [(key, e)]).map Prod.fst).Nodup := by
  rw [List.map_append, List.nodup_append]
  refine ⟨h.sublist (List.filter_sublist.map _), List.nodup_singleton _, ?_⟩
  intro k hk k' hk'
  obtain ⟨x, hx, rfl⟩ := List.mem_map.mp hk
  rw [List.mem_singleton.mp hk']
  exact (mem_without.mp hx).2

theorem find?_eq_of_mem {c : KeyedCache α} (h : (c.entries.map Prod.fst).Nodup) {x : Text × CacheEntry α}
    (hx : x ∈ c.entries) : c.find? x.1 = some x.2 :=
  congrArg (Option.map Prod.snd) (OrderedMap.find?_of_mem h hx)

theorem keys_nodup_settle {c : KeyedCache α} (h : (c.entries.map Prod.fst).Nodup) (ticket : LoadTicket)
    (value : α) : ((c.settle ticket value).entries.map Prod.fst).Nodup := by
  unfold settle
  dsimp only
  split
  · exact h
  · exact (keys_nodup_without_append h _ _).sublist ((List.drop_sublist _ _).map _)

theorem ttl_settle (c : KeyedCache α) (ticket : LoadTicket) (value : α) :
    (c.settle ticket value).ttl = c.ttl := by
  unfold settle
  dsimp only
  split <;> rfl

theorem generation_settle (c : KeyedCache α) (ticket : LoadTicket) (value : α) :
    (c.settle ticket value).generation = c.generation := by
  unfold settle
  dsimp only
  split <;> rfl

end KeyedCache

namespace CacheRun

open KeyedCache CacheEvent

variable {α : Type} {ttl : Quantity} {generation : Nat} {h h' : List (CacheEvent α)} {s s' : CacheRun α}

theorem accounts_began (ha : Accounts ttl generation h s.cache) {key : Text} {ticket : LoadTicket}
    (hlookup : s.cache.lookup key s.now = .ok (.load ticket)) :
    Accounts ttl generation (h ++ [.began key s.now]) s.cache := by
  refine ha.concat rfl rfl ha.keys_nodup (fun x hx => ?_) nofun nofun
  obtain ⟨j, m, hbacks⟩ := ha.entries x hx
  refine ⟨j, m, hbacks.concat nofun fun r he => ?_⟩
  cases he
  rcases lookup_eq_ok hlookup with ⟨e, -, -, hfound⟩ | ⟨-, hexpired⟩
  · cases hfound
  · have hstale := hexpired x.2 (find?_eq_of_mem ha.keys_nodup hx)
    rwa [ha.ttl_eq] at hstale

theorem accounts_settle {es : List (CacheEvent α)} {key : Text} {ticket : LoadTicket}
    (hlookup : s.cache.lookup key s.now = .ok (.load ticket))
    (hbefore : Accounts ttl generation h s.cache)
    (hafter : Accounts ttl generation (h ++ [began key s.now] ++ es) s'.cache)
    (hes : ∀ start v, loaded start v ∈ es → h.length < start) (value : α) :
    Accounts ttl generation (h ++ [began key s.now] ++ es ++ [loaded h.length value])
      (s'.cache.settle ticket value) := by
  obtain ⟨isRefresh, rfl⟩ : ∃ isRefresh, ticket = ⟨key, s.now, s.cache.generation, isRefresh⟩ := by
    rcases lookup_eq_ok hlookup with ⟨e, -, -, hfound⟩ | ⟨hfound, -⟩
    · cases hfound
    · exact ⟨_, CacheLookup.load.inj hfound⟩
  refine hafter.concat (ttl_settle _ _ _) (generation_settle _ _ _) (keys_nodup_settle hafter.keys_nodup _ _)
    (fun x hx => ?_) nofun (fun start v he => ?_)
  · rcases mem_of_mem_settle hx with hx | ⟨rfl, hgeneration⟩
    · obtain ⟨j, m, hbacks⟩ := hafter.entries x hx
      exact ⟨j, m, hbacks.concat nofun nofun⟩
    · have hcount : es.countP isInvalidation = 0 := by
        simp only [hbefore.generation_eq, hafter.generation_eq, List.countP_append] at hgeneration
        omega
      exact ⟨_, _, backs_loaded ttl h es key s.now value hcount⟩
  · cases he
    refine ⟨by simp only [List.length_append, List.length_singleton]; omega, fun v' hmem => ?_⟩
    -- The loader began now, so no loader with its number has ended before.
    rw [List.mem_append, List.mem_append] at hmem
    rcases hmem with (hmem | hmem) | hmem
    · exact absurd (hbefore.start_lt _ _ hmem) (lt_irrefl _)
    · cases List.mem_singleton.mp hmem
    · exact absurd (hes _ _ hmem) (lt_irrefl _)

theorem accounts_invalidate (ha : Accounts ttl generation h s.cache) (key : Option Text) :
    Accounts ttl generation (h ++ [.invalidated key]) (s.cache.invalidate key) := by
  have hkept : ∀ x ∈ (s.cache.invalidate key).entries, x ∈ s.cache.entries ∧ key ≠ none ∧ key ≠ some x.1 := by
    intro x hx
    cases key with
    | none => cases hx
    | some k =>
      obtain ⟨hx, hne⟩ := mem_without.mp hx
      exact ⟨hx, nofun, fun heq => hne (Option.some.inj heq).symm⟩
  refine ha.concat rfl rfl ?_ (fun x hx => ?_) nofun nofun
  · cases key with
    | none => exact List.nodup_nil
    | some k => exact ha.keys_nodup.sublist (List.filter_sublist.map _)
  · obtain ⟨hx, hspared⟩ := hkept x hx
    obtain ⟨j, m, hbacks⟩ := ha.entries x hx
    refine ⟨j, m, hbacks.concat (fun k he => ?_) nofun⟩
    cases he
    exact hspared

theorem Proceeds.accounts (hp : Proceeds h s h' s') (ha : Accounts ttl generation h s.cache) :
    Accounts ttl generation h' s'.cache := by
  induction hp with
  | refl h s => exact ha
  | advance h s now => exact ha
  | trans first second ihfirst ihsecond => exact ihsecond (ihfirst ha)
  | renew h s hfind statistics =>
    have hmem := mem_of_find? hfind
    refine { ha with
      keys_nodup := keys_nodup_without_append ha.keys_nodup _ _
      entries := fun x hx => ?_ }
    rcases List.mem_append.mp hx with hx | hx
    · exact ha.entries x (mem_without.mp hx).1
    · rw [List.mem_singleton.mp hx]
      exact ha.entries _ hmem
  | serve h s hfind hfresh =>
    refine ha.concat rfl rfl ha.keys_nodup (fun x hx => ?_) (fun key' r v he => ?_) nofun
    · obtain ⟨j, m, hbacks⟩ := ha.entries x hx
      exact ⟨j, m, hbacks.concat nofun nofun⟩
    · cases he
      obtain ⟨j, m, hbacks⟩ := ha.entries _ (mem_of_find? hfind)
      rw [ha.ttl_eq] at hfresh
      exact ⟨_, j, m, hbacks, hfresh⟩
  | invalidate h s key => exact accounts_invalidate ha key
  | fail hlookup during ih => exact ih (accounts_began ha hlookup)
  | load hlookup during value ih =>
    obtain ⟨es, rfl, hes⟩ := during.exists_append
    refine accounts_settle hlookup ha (ih (accounts_began ha hlookup)) (fun start v hmem => ?_) value
    have := hes start v hmem
    rwa [List.length_append, List.length_singleton] at this

end CacheRun

/-! Clocks that go forward. -/

namespace CacheEvent

variable {α : Type} {h : List (CacheEvent α)}

def reading? : CacheEvent α → Option Quantity
  | began _ now => some now
  | served _ now _ => some now
  | _ => none

def readings (h : List (CacheEvent α)) : List Quantity :=
  h.filterMap reading?

def begins (key : Text) : CacheEvent α → Bool
  | began k _ => k = key
  | _ => false

def ends (start : Nat) : CacheEvent α → Bool
  | loaded j _ => j = start
  | _ => false

/-- While a loader of the key runs that will give a value, no other loader of the key begins. -/
def LoadsApart (h : List (CacheEvent α)) (key : Text) : Prop :=
  ∀ m < h.length, ∀ l < m, ∀ j < l, h[j]?.any (begins key) = true → h[m]?.any (ends j) = true →
    h[l]?.any (begins key) = false

instance (key : Text) : Decidable (LoadsApart h key) :=
  inferInstanceAs (Decidable (∀ m < h.length, ∀ l < m, ∀ j < l, _ → _ → _))

theorem LoadsApart.not_began {key : Text} (hapart : LoadsApart h key) {ts r : Quantity} {v : α} {j m l : Nat}
    (hload : LoadedAt h key ts v j m) (hjl : j < l) (hlm : l < m) : h[l]? ≠ some (.began key r) := by
  intro hl
  obtain ⟨-, hbegan, hloaded⟩ := hload
  have hm : m < h.length := (List.getElem?_eq_some_iff.mp hloaded).1
  have hnot := hapart m hm l hlm j hjl (by simp [hbegan, begins]) (by simp [hloaded, ends])
  simp [hl, begins] at hnot

/-- Loaders of one key that run one after the other do not overlap. -/
theorem LoadsApart.lt_of_loadedAt {key : Text} (hapart : LoadsApart h key)
    (honce : ∀ (start m m' : Nat) (v v' : α), h[m]? = some (.loaded start v) →
      h[m']? = some (.loaded start v') → m = m')
    {ts ts' : Quantity} {v v' : α} {j m j' m' : Nat} (hload : LoadedAt h key ts v j m)
    (hload' : LoadedAt h key ts' v' j' m') (hlt : m < m') : m < j' := by
  by_contra hle
  obtain ⟨hjm, hbegan, hloaded⟩ := hload
  obtain ⟨hjm', hbegan', hloaded'⟩ := hload'
  have hne : j' ≠ m := by
    rintro rfl
    rw [hbegan'] at hloaded
    cases hloaded
  rcases lt_trichotomy j' j with hbefore | rfl | hafter
  · exact hapart.not_began ⟨hjm', hbegan', hloaded'⟩ hbefore (hjm.trans hlt) hbegan
  · exact hlt.ne (honce j' m m' v v' hloaded hloaded')
  · exact hapart.not_began ⟨hjm, hbegan, hloaded⟩ hafter (by omega) hbegan'

theorem le_of_readings (hle : (readings h).Pairwise fun r r' => r.le r' = true) {e e' : CacheEvent α}
    {i i' : Nat} {r r' : Quantity} (hi : h[i]? = some e) (hi' : h[i']? = some e') (hlt : i < i')
    (hr : e.reading? = some r) (hr' : e'.reading? = some r') : r.le r' = true := by
  rw [readings, List.pairwise_filterMap, List.pairwise_iff_getElem] at hle
  obtain ⟨hlength, rfl⟩ := List.getElem?_eq_some_iff.mp hi
  obtain ⟨hlength', rfl⟩ := List.getElem?_eq_some_iff.mp hi'
  exact hle i i' hlength hlength' hlt r hr r' hr'

theorem mem_readings {e : CacheEvent α} {i : Nat} {r : Quantity} (hi : h[i]? = some e)
    (hr : e.reading? = some r) : r ∈ readings h :=
  List.mem_filterMap.mpr ⟨e, List.mem_of_getElem? hi, hr⟩

end CacheEvent

theorem Quantity.areCommensurable_of_subset {l l' : List Quantity} (h : areCommensurable l = true)
    (hsub : ∀ q ∈ l', q ∈ l) : areCommensurable l' = true := by
  rw [areCommensurable, Bool.or_eq_true, List.all_eq_true, List.all_eq_true] at h ⊢
  rcases h with h | h
  · exact .inl fun q hq => h q (hsub q hq)
  · exact .inr fun q hq => h q (hsub q hq)

namespace KeyedCache

theorem isFresh_eq_ok_iff {ttl now before : Quantity} {fresh : Bool} :
    isFresh ttl now before = .ok fresh ↔ ∃ age, now.sub before = .ok age ∧ age.lt ttl = fresh := by
  unfold isFresh
  cases now.sub before with
  | error f => exact ⟨nofun, nofun⟩
  | ok age =>
    constructor
    · intro h
      exact ⟨age, rfl, Except.ok.inj h⟩
    · rintro ⟨age', hage', rfl⟩
      rw [← Except.ok.inj hage']
      rfl

theorem isFresh_ne_true {ttl before r now : Quantity}
    (hreadings : Quantity.areCommensurable [before, r, now] = true) (hle : r.le now = true)
    (hexpired : isFresh ttl r before = .ok false) : isFresh ttl now before ≠ .ok true := by
  intro hfresh
  obtain ⟨age, hage, hold⟩ := isFresh_eq_ok_iff.mp hexpired
  obtain ⟨age', hage', hnew⟩ := isFresh_eq_ok_iff.mp hfresh
  obtain ⟨c, t, hc, ht, hlt⟩ := Quantity.lt_iff.mp hnew
  rcases Quantity.sub_mono hreadings hle hage' hc with rfl | ⟨age'', c', hage'', hc', hle'⟩
  · exact not_top_lt hlt
  · obtain rfl := Except.ok.inj (hage.symm.trans hage'')
    have hyoung : age.lt ttl = true := Quantity.lt_iff.mpr ⟨c', t, hc', ht, hle'.trans_lt hlt⟩
    rw [hold] at hyoung
    cases hyoung

end KeyedCache

namespace CacheRun

open CacheEvent

variable {α : Type}

/-- What is served without a loader was given by a loader of the same key that read the clock less than the
time to live ago, with no invalidation of the key since. If readings never decrease, and are all whole or small
enough, that loader was the last one of the key to give a value, unless loaders of the key were nested. -/
theorem served_from_last_load (cache : KeyedCache α) (hempty : cache.entries = []) (now : Quantity)
    (steps : List (CacheStep α)) :
    let h := recordRun [] ⟨cache, now⟩ steps
    ∀ i key r v, h[i]? = some (.served key r v) →
      ∃ j m ts age, m < i ∧ LoadedAt h key ts v j m ∧ r.sub ts = .ok age ∧ age.lt cache.ttl = true ∧
        (∀ l k, j < l → l < i → h[l]? = some (.invalidated k) → k ≠ none ∧ k ≠ some key) ∧
        ((readings h).Pairwise (fun r r' => r.le r' = true) → Quantity.areCommensurable (readings h) = true →
          LoadsApart h key → ∀ j' m' ts' v', m < m' → m' < i → ¬ LoadedAt h key ts' v' j' m') := by
  intro h i key r v hi
  have haccounts : Accounts cache.ttl cache.generation h _ :=
    (proceeds_run [] ⟨cache, now⟩ steps).accounts (accounts_nil hempty)
  obtain ⟨ts, j, m, hbacks, hfresh⟩ := haccounts.served i key r v hi
  obtain ⟨age, hage, hyoung⟩ := KeyedCache.isFresh_eq_ok_iff.mp hfresh
  have hload : LoadedAt h key ts v j m := by
    have hload := hbacks.loadedAt.append (h.drop i)
    rwa [List.take_append_drop] at hload
  have hbefore {l : Nat} (hl : l < i) : (h.take i)[l]? = h[l]? := List.getElem?_take_of_lt hl
  have hmi : m < i := by
    have hm := (List.getElem?_eq_some_iff.mp hbacks.loadedAt.2.2).1
    rw [List.length_take] at hm
    omega
  refine ⟨j, m, ts, age, hmi, hload, hage, hyoung, ?_, ?_⟩
  · intro l k hjl hli hk
    exact hbacks.spared l k hjl ((hbefore hli).trans hk)
  · intro hle hcommensurable hapart j' m' ts' v' hmm' hm'i hload'
    -- A later loader of the key began when the value had expired, and it has expired ever since.
    have hmj' : m < j' := hapart.lt_of_loadedAt haccounts.loaded_once hload hload' hmm'
    have hj'i : j' < i := hload'.1.trans hm'i
    have hexpired := hbacks.expired j' ts' hmj' ((hbefore hj'i).trans hload'.2.1)
    have hlater : ts'.le r = true := le_of_readings hle hload'.2.1 hi hj'i rfl rfl
    refine KeyedCache.isFresh_ne_true (Quantity.areCommensurable_of_subset hcommensurable ?_) hlater hexpired
      hfresh
    intro q hq
    simp only [List.mem_cons, List.not_mem_nil, or_false] at hq
    rcases hq with rfl | rfl | rfl
    · exact mem_readings hload.2.1 rfl
    · exact mem_readings hload'.2.1 rfl
    · exact mem_readings hi rfl

/-- A key that is loaded along with another one, loaded again to no effect, since the other one is invalidated
meanwhile, and loaded for good when the clock has become fractional. -/
def reloaded : List (CacheStep Nat) :=
  [.get "a" [.get "b" [] (some 1)] (some 2), .advance (.whole 10),
    .get "a" [.invalidate (some "b")] (some 3), .advance (.fractional (.finite (5 / 2))),
    .get "a" [] (some 4), .advance (.whole 5), .peek "a"]

theorem served_from_last_load_reloaded :
    let h := recordRun [] ⟨{ ttl := .whole 10, maxEntries := 2 }, .whole 0⟩ reloaded
    h[9]? = some (.served "a" (.fractional (.finite (35 / 2))) 4) ∧
      (readings h).Pairwise (fun r r' => r.le r' = true) ∧ Quantity.areCommensurable (readings h) = true ∧
      LoadsApart h "a" ∧ LoadedAt h "a" (.whole 10) 3 4 6 ∧
      ∃ j m ts, m < 9 ∧ LoadedAt h "a" ts 4 j m ∧
        ∀ j' m' ts' v', m < m' → m' < 9 → ¬ LoadedAt h "a" ts' v' j' m' := by
  intro h
  have hserved : h[9]? = some (.served "a" (.fractional (.finite (35 / 2))) 4) := by decide +kernel
  have hle : (readings h).Pairwise (fun r r' => r.le r' = true) := by decide +kernel
  have hcommensurable : Quantity.areCommensurable (readings h) = true := by decide +kernel
  have hapart : LoadsApart h "a" := by decide +kernel
  obtain ⟨j, m, ts, -, hm, hload, -, -, -, hlast⟩ :=
    served_from_last_load { ttl := .whole 10, maxEntries := 2 } rfl (.whole 0) reloaded 9 "a" _ 4 hserved
  exact ⟨hserved, hle, hcommensurable, hapart, by decide +kernel, j, m, ts, hm, hload,
    hlast hle hcommensurable hapart⟩

/-- A large whole reading is blurred when it is subtracted from a fractional one, so that a value that had
expired is fresh again; a newer one was not kept, since another key had been invalidated. -/
theorem served_from_older_load :
    let h := recordRun [] ⟨{ ttl := .whole 1 }, .whole 9007199254740995⟩
      [.get "k" [] (some 0), .advance (.whole 1), .get "k" [.invalidate (some "other")] (some 1),
        .advance (.fractional (.finite (1 / 2))), .get "k" [] (some 2)]
    h[5]? = some (.served "k" (.fractional (.finite 9007199254740996)) 0) ∧
      (readings h).Pairwise (fun r r' => r.le r' = true) ∧ LoadsApart h "k" ∧
      LoadedAt h "k" (.whole 9007199254740995) 0 0 1 ∧ LoadedAt h "k" (.whole 9007199254740996) 1 2 4 := by
  decide +kernel

end CacheRun
end EditorInsight
