import EditorInsight.Proofs.Watch.Listeners

/-!
# Starting and stopping to watch

A session may start and stop its watcher over and over, while listeners come and go and events arrive.
Whatever the order, no listener is registered twice, no second observer is started beside a running one, and
each reported path reaches every registered listener once, in the order of registration, also if some of
them fail.

Observers are counted from the log, where each start and each stop is written down.
-/

namespace EditorInsight.Session

variable {s s' : Session} {w : Watcher Listener} {ls : List Listener} {react : Nat → Text → Reaction}

/-- An event that tells of the start of an observer, `some true`, or of its stop, `some false`. -/
def announcement? (e : LogEvent) : Option Bool :=
  if e.severity = Severity.info ∧ e.logger = watchLogger then
    if "LibraryWatcher started".toList.isPrefixOf e.message then some true
    else if "LibraryWatcher stopped".toList = e.message then some false
    else none
  else none

theorem announcement?_service (m : Text) : announcement? (.info logger m) = none := rfl

theorem announcement?_error (m : Text) : announcement? (.error watchLogger m) = none := rfl

theorem announcement?_initialized (root : Text) :
    announcement? (.info watchLogger ("LibraryWatcher initialized for " ++ root)) = none := rfl

theorem announcement?_started (root : Text) :
    announcement? (.info watchLogger ("LibraryWatcher started, monitoring " ++ root)) = some true := rfl

theorem announcement?_stopped :
    announcement? (.info watchLogger "LibraryWatcher stopped") = some false := rfl

def starts (log : List LogEvent) : Nat := log.countP (announcement? · = some true)

def stops (log : List LogEvent) : Nat := log.countP (announcement? · = some false)

/-- Whether an observer is alive after the events, if one was or was not before; nothing is said of events
by which a second one is started or one that is not alive is stopped. -/
def observing : Bool → List LogEvent → Option Bool
  | alive, [] => some alive
  | alive, e :: r =>
    match announcement? e with
    | none => observing alive r
    | some now => if now = alive then none else observing now r

theorem observing_append (alive : Bool) (x y : List LogEvent) :
    observing alive (x ++ y) = (observing alive x).bind (observing · y) := by
  induction x generalizing alive with
  | nil => rfl
  | cons e r ih =>
    simp only [List.cons_append, observing]
    cases announcement? e with
    | none => exact ih alive
    | some now => by_cases h : now = alive <;> simp [h, ih]

theorem observing_of_silent {events : List LogEvent} (h : ∀ e ∈ events, announcement? e = none)
    (alive : Bool) : observing alive events = some alive := by
  induction events with
  | nil => rfl
  | cons e r ih =>
    rw [List.forall_mem_cons] at h
    simp only [observing, h.1, ih h.2]

theorem starts_of_observing {alive alive' : Bool} {log : List LogEvent}
    (h : observing alive log = some alive') : starts log + alive.toNat = stops log + alive'.toNat := by
  induction log generalizing alive with
  | nil =>
    cases h
    rfl
  | cons e r ih =>
    simp only [observing] at h
    simp only [starts, stops, List.countP_cons] at ih ⊢
    cases he : announcement? e with
    | none =>
      rw [he] at h
      simpa using ih h
    | some now =>
      rw [he] at h
      by_cases hnow : now = alive
      · simp [hnow] at h
      · have hr := ih (by simpa [hnow] using h)
        -- A start counts where none was alive, a stop where one was.
        cases now <;> cases alive <;> simp at hnow hr ⊢
        all_goals omega

/-- The path is that of a module of the library, and no component of it is ignored. -/
def IsModulePath (s : Session) (path : Text) : Prop :=
  (∀ name ∈ Path.components path, Watcher.isIgnoredName name = false) ∧
    ∃ e ∈ s.library.extensions, e <:+ Text.lower path

instance (s : Session) (path : Text) : Decidable (s.IsModulePath path) :=
  inferInstanceAs (Decidable ((∀ name ∈ Path.components path, Watcher.isIgnoredName name = false) ∧
    ∃ e ∈ s.library.extensions, e <:+ Text.lower path))

/-- What starting and stopping, registering and reporting keep. -/
structure IsOrderly (s : Session) : Prop where
  nodup : s.listeners.Nodup
  isWanted : s.watcher.isSome = true → s.configuration.settings.watchLibraries = true
  extensions : ∀ w ∈ s.watcher, w.extensions = s.library.extensions
  observing : observing false s.log = some s.isWatching

theorem isOrderly_start (c : Configuration) (schema : Schema) (disk : Disk) :
    (start c schema disk).IsOrderly where
  nodup := List.nodup_nil
  isWanted := fun h => nomatch h
  extensions := fun _ h => nomatch h
  observing := rfl

theorem IsOrderly.note (h : s.IsOrderly) {events : List LogEvent}
    (he : ∀ e ∈ events, announcement? e = none) : (s.note events).IsOrderly where
  nodup := h.nodup
  isWanted := h.isWanted
  extensions := h.extensions
  observing := by
    change Session.observing false (s.log ++ events) = some s.isWatching
    rw [observing_append, h.observing, Option.bind_some, observing_of_silent he]

theorem IsOrderly.noteService (h : s.IsOrderly) (m : Text) : (s.note [.info logger m]).IsOrderly :=
  h.note (List.forall_mem_singleton.mpr (announcement?_service m))

theorem IsOrderly.of_isRelisted (h : s.IsOrderly) (hs' : s.IsRelisted ls s') (hls : ls.Nodup) :
    s'.IsOrderly := by
  have hconfiguration := hs'.configuration
  have hwatcher := hs'.watcher
  cases hw : s.watcher with
  | none =>
    rw [hw, Option.map_none] at hwatcher
    refine ⟨?_, ?_, ?_, ?_⟩
    · rw [listeners_eq_nil hwatcher]
      exact List.nodup_nil
    · simp [hwatcher]
    · simp [hwatcher]
    · rw [hs'.log, h.observing, isWatching, isWatching, hw, hwatcher]
  | some w =>
    rw [hw, Option.map_some] at hwatcher
    refine ⟨?_, ?_, ?_, ?_⟩
    · rw [listeners_of_watcher hwatcher]
      exact hls
    · intro _
      rw [hconfiguration]
      exact h.isWanted (Option.isSome_of_eq_some hw)
    · intro w' hw'
      rw [hwatcher] at hw'
      cases hw'
      rw [library, hconfiguration]
      exact h.extensions w hw
    · rw [hs'.log, h.observing, isWatching, isWatching, hw, hwatcher]
      rfl

theorem IsOrderly.enrol (h : s.IsOrderly) (c : Enrolment) : (s.enrol c).IsOrderly :=
  h.of_isRelisted (isRelisted_enrol h.nodup c) (Enrolment.nodup_apply h.nodup c)

theorem IsOrderly.setRunning (h : s.IsOrderly) (hw : s.watcher = some w) {now : Bool} {e : LogEvent}
    (hnow : now ≠ w.isRunning) (he : announcement? e = some now) :
    ({ s with watcher := some { w with isRunning := now } }.note [e]).IsOrderly where
  nodup := by
    have hn := h.nodup
    rw [listeners_of_watcher hw] at hn
    exact hn
  isWanted := fun _ => h.isWanted (Option.isSome_of_eq_some hw)
  extensions := by
    intro w' hw'
    cases hw'
    exact h.extensions w hw
  observing := by
    have hrunning : s.isWatching = w.isRunning := by rw [isWatching, hw, Option.any_some]
    change Session.observing false (s.log ++ [e]) = some now
    rw [observing_append, h.observing, Option.bind_some, hrunning]
    simp only [Session.observing, he, hnow, if_false]

theorem isRunning_register (w : Watcher Listener) (l : Listener) :
    (w.register l).isRunning = w.isRunning := by
  unfold Watcher.register
  split <;> rfl

theorem takeUp_eq (hw : s.watcher = some w) :
    s.takeUp w = .ok (if w.isRunning then s.enrol (.join .session)
      else { s.enrol (.join .session) with
          watcher := some { w.register .session with isRunning := true } }.note
        [.info watchLogger ("LibraryWatcher started, monitoring " ++ (w.register .session).root)]) := by
  cases hrunning : w.isRunning <;>
    simp [Session.takeUp, Watcher.start?, isRunning_register, hrunning, Session.enrol, hw]

theorem IsOrderly.takeUp (h : s.IsOrderly) (hw : s.watcher = some w) (hs' : s.takeUp w = .ok s') :
    s'.IsOrderly ∧ s'.listeners = (Enrolment.join .session).apply s.listeners := by
  have hjoined := h.enrol (.join .session)
  have hwatcher : (s.enrol (.join .session)).watcher = some (w.register .session) := by
    rw [Session.enrol, hw, Option.map_some]
  have hlisteners := (isRelisted_enrol h.nodup (.join .session)).listeners_eq (Option.isSome_of_eq_some hw)
  rw [takeUp_eq hw] at hs'
  cases hs'
  split
  · exact ⟨hjoined, hlisteners⟩
  next hstopped =>
    refine ⟨hjoined.setRunning hwatcher ?_ (announcement?_started _), ?_⟩
    · rw [isRunning_register]
      exact Ne.symm hstopped
    · rw [← hlisteners, listeners_of_watcher hwatcher]
      rfl

theorem makeWatcher_cases (s : Session) :
    s.makeWatcher = .error (.nameTooLong s.library.root) ∨ s.makeWatcher = .error (.path .embeddedNull) ∨
      (∃ message, s.makeWatcher = .ok (s.note [.info logger message], none)) ∨
      ∃ top, s.makeWatcher = .ok (s.note [.info watchLogger ("LibraryWatcher initialized for " ++ top)],
        some { root := top, extensions := s.library.extensions }) := by
  unfold makeWatcher
  dsimp only
  split
  · exact .inl rfl
  · split
    · cases Path.canonical s.disk.current s.library.root with
      | error f =>
        cases f
        exact .inr (.inl rfl)
      | ok top => exact .inr (.inr (.inr ⟨top, rfl⟩))
    · exact .inr (.inr (.inl ⟨_, rfl⟩))

/-- Starting does nothing without a library to watch; otherwise the watcher that is there is taken up, or a
new one that has no listeners yet. A path that no disk can follow is all that start fails for. -/
theorem startWatching_cases (s : Session) :
    s.startWatching = .error (.nameTooLong s.library.root) ∨
      s.startWatching = .error (.path .embeddedNull) ∨
      (∃ message, s.startWatching = .ok (s.note [.info logger message]) ∧
        (s.configuration.settings.watchLibraries = true → s.watcher = none)) ∨
      s.configuration.settings.watchLibraries = true ∧
        ((∃ w, s.watcher = some w ∧ s.startWatching = s.takeUp w) ∨
          s.watcher = none ∧ ∃ top, s.startWatching =
            (s.note [.info watchLogger ("LibraryWatcher initialized for " ++ top)]).takeUp
              { root := top, extensions := s.library.extensions }) := by
  unfold startWatching
  cases s.configuration.settings.watchLibraries with
  | false => exact .inr (.inr (.inl ⟨_, rfl, fun hfalse => nomatch hfalse⟩))
  | true =>
    cases s.watcher with
    | some w => exact .inr (.inr (.inr ⟨rfl, .inl ⟨w, rfl, rfl⟩⟩))
    | none =>
      obtain hmade | hmade | ⟨message, hmade⟩ | ⟨top, hmade⟩ := s.makeWatcher_cases
      · exact .inl (by rw [hmade]; rfl)
      · exact .inr (.inl (by rw [hmade]; rfl))
      · exact .inr (.inr (.inl ⟨message, by rw [hmade]; rfl, fun _ => rfl⟩))
      · exact .inr (.inr (.inr ⟨rfl, .inr ⟨rfl, top, by rw [hmade]; rfl⟩⟩))

theorem startWatching_ne_alreadyRunning {f : ServiceFault} (h : s.startWatching = .error f) :
    f.message ≠ Watcher.alreadyRunning := by
  have htakeUp : ∀ (s : Session) (w : Watcher Listener), s.takeUp w ≠ .error f := by
    intro s w
    change ({ s with watcher := some w } : Session).takeUp w ≠ .error f
    rw [takeUp_eq rfl]
    nofun
  obtain hstart | hstart | ⟨_, hstart, -⟩ | ⟨-, ⟨w, -, hstart⟩ | ⟨-, _, hstart⟩⟩ := s.startWatching_cases
  all_goals rw [hstart] at h
  · cases h
    exact fun hmessage => absurd (show some '[' = some 'L' from congrArg List.head? hmessage) (by decide)
  · cases h
    decide
  · cases h
  · exact absurd h (htakeUp _ _)
  · exact absurd h (htakeUp _ _)

theorem IsOrderly.setWatcher (h : s.IsOrderly) (hw : s.watcher = none)
    (hwanted : s.configuration.settings.watchLibraries = true) (root : Text) :
    IsOrderly { s with watcher := some { root, extensions := s.library.extensions } } where
  nodup := List.nodup_nil
  isWanted := fun _ => hwanted
  extensions := by
    intro w hw
    cases hw
    rfl
  observing := by
    have hobserving := h.observing
    rw [isWatching, hw] at hobserving
    exact hobserving

theorem IsOrderly.startWatching (h : s.IsOrderly) (hs' : s.startWatching = .ok s') :
    s'.IsOrderly ∧
      (s'.watcher.isSome = true → s'.listeners = (Enrolment.join .session).apply s.listeners) := by
  obtain hstart | hstart | ⟨message, hstart, hnone⟩ | ⟨hwanted, ⟨w, hw, hstart⟩ | ⟨hw, top, hstart⟩⟩ :=
    s.startWatching_cases
  all_goals rw [hstart] at hs'
  · cases hs'
  · cases hs'
  · cases hs'
    refine ⟨h.noteService message, fun hsome => ?_⟩
    have hw := hnone (h.isWanted hsome)
    rw [show (s.note [.info logger message]).watcher = none from hw] at hsome
    exact nomatch hsome
  · exact (h.takeUp hw hs').imp_right fun hlisteners _ => hlisteners
  · have hnoted := h.note (List.forall_mem_singleton.mpr (announcement?_initialized top))
    obtain ⟨hs', hlisteners⟩ := (hnoted.setWatcher hw hwanted top).takeUp rfl hs'
    refine ⟨hs', fun _ => ?_⟩
    rw [hlisteners, listeners_eq_nil hw]
    rfl

theorem IsOrderly.stopWatching (h : s.IsOrderly) : s.stopWatching.IsOrderly := by
  unfold Session.stopWatching
  cases hw : s.watcher with
  | none => exact h
  | some w =>
    dsimp only
    split
    next hrunning => exact h.setRunning hw (by simp [hrunning]) announcement?_stopped
    next => exact h

theorem listeners_stopWatching (s : Session) : s.stopWatching.listeners = s.listeners := by
  unfold Session.stopWatching
  cases hw : s.watcher with
  | none => rfl
  | some w =>
    dsimp only
    split
    · rw [listeners_of_watcher hw]
      rfl
    · rfl

theorem IsOrderly.shutDown (h : s.IsOrderly) : s.shutDown.IsOrderly := by
  have hstopped := (h.noteService "LanguageService shutting down...").stopWatching
  unfold Session.shutDown
  dsimp only
  apply IsOrderly.noteService
  exact hstopped.of_isRelisted ⟨rfl, rfl, (IsRelisted.refl _).watcher⟩ hstopped.nodup

theorem listeners_shutDown (s : Session) : s.shutDown.listeners = s.listeners :=
  listeners_stopWatching (s.note _)

/-! Events. -/

def modulePaths (s : Session) (e : FileEvent) : List Text :=
  (Watcher.touched e).filter (s.IsModulePath ·)

theorem reports_eq (hw : s.watcher = some w) (h : s.IsOrderly) (e : FileEvent) :
    w.reports e = s.modulePaths e := by
  unfold Watcher.reports modulePaths
  congr 1
  funext path
  rw [Bool.eq_iff_iff, decide_eq_true_iff]
  simp [Watcher.isReported, Watcher.isIgnored, Watcher.isModuleFile, IsModulePath, h.extensions w hw]

theorem handOut_of_watcher (hw : s.watcher = some w)
    (call : Listener → Text → Session → Session × Option Text) (e : FileEvent) :
    s.handOut call e =
      ((Watcher.deliver listeners call (w.reports e) s).1.note
        ((Watcher.deliver listeners call (w.reports e) s).2.filterMap fun d =>
          d.complaint?.map (LogEvent.error watchLogger)),
        (Watcher.deliver listeners call (w.reports e) s).2) := by
  unfold handOut
  rw [hw]

theorem handOut_of_none (hw : s.watcher = none)
    (call : Listener → Text → Session → Session × Option Text) (e : FileEvent) :
    s.handOut call e = (s, []) := by
  unfold handOut
  rw [hw]

/-- Nothing is called but what is told, and nothing but failures is noted. -/
theorem fst_handOut (call : Listener → Text → Session → Session × Option Text) (s : Session)
    (e : FileEvent) :
    (s.handOut call e).1 =
      (((s.handOut call e).2.map Delivery.call).foldl (fun s c => (call c.1 c.2 s).1) s).note
        ((s.handOut call e).2.filterMap fun d => d.complaint?.map (LogEvent.error watchLogger)) := by
  cases hw : s.watcher with
  | none =>
    rw [handOut_of_none hw]
    simp [note]
  | some w => rw [handOut_of_watcher hw, ← Watcher.fst_deliver]

theorem nodup_foldl_remaining (hls : ls.Nodup) (paths : List Text) :
    (paths.foldl (remaining react) ls).Nodup := by
  induction paths generalizing ls with
  | nil => exact hls
  | cons path r ih => exact ih (Enrolment.nodup_foldl_apply hls _)

theorem callsWith_nil (paths : List Text) : callsWith react [] paths = [] := by
  induction paths with
  | nil => rfl
  | cons path r ih => exact ih

def calls (s : Session) (react : Nat → Text → Reaction) (e : FileEvent) : List (Listener × Text) :=
  (s.handOut (hearWith react) e).2.map Delivery.call

theorem IsOrderly.calls_eq (h : s.IsOrderly) (e : FileEvent) :
    s.calls react e = callsWith react s.listeners (s.modulePaths e) := by
  unfold calls
  cases hw : s.watcher with
  | none =>
    rw [handOut_of_none hw, listeners_eq_nil hw, callsWith_nil]
    rfl
  | some w =>
    rw [handOut_of_watcher hw, reports_eq hw h]
    exact (deliver_hearWith react (Option.isSome_of_eq_some hw) h.nodup _).2

theorem IsOrderly.handOut (h : s.IsOrderly) (e : FileEvent) :
    (s.handOut (hearWith react) e).1.IsOrderly := by
  cases hw : s.watcher with
  | none =>
    rw [handOut_of_none hw]
    exact h
  | some w =>
    rw [handOut_of_watcher hw]
    have hdelivered := (deliver_hearWith react (Option.isSome_of_eq_some hw) h.nodup (w.reports e)).1
    refine (h.of_isRelisted hdelivered (nodup_foldl_remaining h.nodup _)).note ?_
    intro complaint hcomplaint
    obtain ⟨d, -, hd⟩ := List.mem_filterMap.mp hcomplaint
    obtain ⟨m, -, rfl⟩ := Option.map_eq_some_iff.mp hd
    exact announcement?_error m

theorem IsOrderly.listeners_handOut (h : s.IsOrderly) (e : FileEvent) (hw : s.watcher.isSome = true) :
    (s.handOut (hearWith react) e).1.listeners = (s.modulePaths e).foldl (remaining react) s.listeners := by
  have hdelivered := (deliver_hearWith react hw h.nodup (s.modulePaths e)).1.listeners_eq hw
  obtain ⟨w, hw⟩ := Option.isSome_iff_exists.mp hw
  rw [handOut_of_watcher hw, reports_eq hw h]
  exact hdelivered

/-- What happens to the watcher of a session. -/
inductive WatchStep where
  | start
  | stop
  | shutDown
  | enrol (change : Enrolment)
  /-- An event that listeners other than the session react to as given. -/
  | event (e : FileEvent) (react : Nat → Text → Reaction)
  /-- The files become others, and no event tells of it. -/
  | edit (top : FileNode)

/-- The session after a step; a start that fails changes nothing. -/
def watchStep (s : Session) : WatchStep → Session
  | .start => s.startWatching.toOption.getD s
  | .stop => s.stopWatching
  | .shutDown => s.shutDown
  | .enrol change => s.enrol change
  | .event e react => (s.handOut (hearWith react) e).1
  | .edit top => { s with disk := { s.disk with top } }

def afterWatch (s : Session) (steps : List WatchStep) : Session := steps.foldl watchStep s

theorem IsOrderly.watchStep (h : s.IsOrderly) (step : WatchStep) : (s.watchStep step).IsOrderly := by
  cases step with
  | start =>
    unfold Session.watchStep
    cases hs' : s.startWatching with
    | error f => exact h
    | ok s' => exact (h.startWatching hs').1
  | stop => exact h.stopWatching
  | shutDown => exact h.shutDown
  | enrol change => exact h.enrol change
  | event e react => exact h.handOut e
  | edit top => exact ⟨h.nodup, h.isWanted, h.extensions, h.observing⟩

theorem IsOrderly.afterWatch (h : s.IsOrderly) (steps : List WatchStep) : (s.afterWatch steps).IsOrderly := by
  induction steps generalizing s with
  | nil => exact h
  | cons step r ih => exact ih (h.watchStep step)

/-- The calls by which listeners hear of a path, if it is that of a module. -/
def told (s : Session) (ls : List Listener) (path : Text) : List (Listener × Text) :=
  if s.IsModulePath path then ls.map (·, path) else []

/-- Who listens once the session has told of a path. -/
def listenersTold (s : Session) (react : Nat → Text → Reaction) (path : Text) : List Listener :=
  if s.IsModulePath path then remaining react s.listeners path else s.listeners

/-- Every registered listener hears once of each reported path, and one observer at most is alive. -/
structure ReportsOnce (s : Session) : Prop where
  nodup : s.listeners.Nodup
  /-- Starting is never refused because a watcher is running. -/
  start_ne_alreadyRunning : ∀ f, s.startWatching = .error f → f.message ≠ Watcher.alreadyRunning
  /-- At any time so far, as many observers were stopped as started, or one less. -/
  observers : ∀ earlier, earlier <+: s.log →
    starts earlier = stops earlier ∨ starts earlier = stops earlier + 1
  observer : starts s.log = stops s.log + if s.isWatching then 1 else 0
  /-- Those who listen are those who registered and did not leave, in order. -/
  listeners_enrol : ∀ change, s.watcher.isSome = true → (s.enrol change).listeners = change.apply s.listeners
  listeners_start : ∀ s', s.startWatching = .ok s' → s'.watcher.isSome = true →
    s'.listeners = (Enrolment.join .session).apply s.listeners
  listeners_stop : s.stopWatching.listeners = s.listeners
  listeners_shutDown : s.shutDown.listeners = s.listeners
  listeners_event : ∀ react e, s.watcher.isSome = true →
    (s.handOut (hearWith react) e).1.listeners = (s.modulePaths e).foldl (remaining react) s.listeners
  calls_of_file : ∀ react e, e.isFolder = false → e.kind ∈ [.created, .modified, .deleted] →
    s.calls react e = s.told s.listeners e.path
  calls_of_move : ∀ react e destination, e.isFolder = false → e.kind = .moved destination →
    s.calls react e = s.told s.listeners e.path ++ s.told (s.listenersTold react e.path) destination
  calls_of_other : ∀ react e, e.isFolder = true ∨ e.kind = .harmless → s.calls react e = []
  /-- The calls are made, in that order; failures are noted and have no other effect. -/
  made : ∀ react e, (s.handOut (hearWith react) e).1 =
    ((s.calls react e).foldl (fun s c => (hearWith react c.1 c.2 s).1) s).note
      ((s.handOut (hearWith react) e).2.filterMap fun d => d.complaint?.map (LogEvent.error watchLogger))

theorem IsOrderly.observers (h : s.IsOrderly) {earlier : List LogEvent} (hearlier : earlier <+: s.log) :
    starts earlier = stops earlier ∨ starts earlier = stops earlier + 1 := by
  obtain ⟨later, hlog⟩ := hearlier
  have hobserving := h.observing
  rw [← hlog, observing_append] at hobserving
  obtain ⟨alive, halive, -⟩ := Option.bind_eq_some_iff.mp hobserving
  have hcount := starts_of_observing halive
  cases alive
  · exact .inl hcount
  · exact .inr hcount

theorem IsOrderly.calls_of_move (h : s.IsOrderly) {e : FileEvent}
    {destination : Text} (he : e.isFolder = false) (hkind : e.kind = .moved destination) :
    s.calls react e = s.told s.listeners e.path ++ s.told (s.listenersTold react e.path) destination := by
  rw [h.calls_eq]
  by_cases hsource : s.IsModulePath e.path <;> by_cases hdestination : s.IsModulePath destination <;>
    simp [modulePaths, Watcher.touched, he, hkind, hsource, hdestination, told, listenersTold, callsWith]

theorem IsOrderly.calls_of_file (h : s.IsOrderly) {e : FileEvent}
    (he : e.isFolder = false) (hkind : e.kind ∈ [.created, .modified, .deleted]) :
    s.calls react e = s.told s.listeners e.path := by
  have htouched : Watcher.touched e = [e.path] := by
    simp only [List.mem_cons, List.not_mem_nil, or_false] at hkind
    obtain hkind | hkind | hkind := hkind <;> simp [Watcher.touched, he, hkind]
  rw [h.calls_eq]
  by_cases hpath : s.IsModulePath e.path <;> simp [modulePaths, htouched, hpath, told, callsWith]

theorem IsOrderly.calls_of_other (h : s.IsOrderly) {e : FileEvent}
    (he : e.isFolder = true ∨ e.kind = .harmless) : s.calls react e = [] := by
  have htouched : Watcher.touched e = [] := by
    obtain he | he := he <;> simp [Watcher.touched, he]
  rw [h.calls_eq, modulePaths, htouched]
  rfl

/-- However often watching is started and stopped, and whoever comes, goes and fails meanwhile. -/
theorem reportsOnce_afterWatch (c : Configuration) (schema : Schema) (disk : Disk)
    (steps : List WatchStep) : ((start c schema disk).afterWatch steps).ReportsOnce := by
  have h := (isOrderly_start c schema disk).afterWatch steps
  generalize (start c schema disk).afterWatch steps = s at h
  exact {
    nodup := h.nodup
    start_ne_alreadyRunning := fun _ hf => startWatching_ne_alreadyRunning hf
    observers := fun _ hearlier => h.observers hearlier
    observer := by
      have hcount := starts_of_observing h.observing
      cases hwatching : s.isWatching <;> simpa [hwatching] using hcount
    listeners_enrol := fun change hw => (isRelisted_enrol h.nodup change).listeners_eq hw
    listeners_start := fun _ hs' => (h.startWatching hs').2
    listeners_stop := listeners_stopWatching s
    listeners_shutDown := Session.listeners_shutDown s
    listeners_event := fun _ e hw => h.listeners_handOut e hw
    calls_of_file := fun _ _ he hkind => h.calls_of_file he hkind
    calls_of_move := fun _ _ _ he hkind => h.calls_of_move he hkind
    calls_of_other := fun _ _ he => h.calls_of_other he
    made := fun react e => fst_handOut (hearWith react) s e }

theorem reportsOnce_afterWatch_leaving :
    let disk : Disk := { top := .folder [("w", .folder [("src", .folder [("libs", .folder [])])])] }
    let react : Nat → Text → Reaction := fun n _ =>
      if n = 1 then { enrolments := [.leave (.other 1)], failure := some ("gone" : Text) } else {}
    let s := (start { workspace := "/w", file := "/w/.apy_intel.yml" } {} disk).afterWatch
      [.start, .enrol (.join (.other 1)), .stop, .start, .enrol (.join (.other 2))]
    let a : Text := "/w/src/libs/a.py"
    let b : Text := "/w/src/libs/b.py"
    s.isWatching = true ∧ s.calls react { kind := .moved b, path := a } =
      [(.session, a), (.other 1, a), (.other 2, a), (.session, b), (.other 2, b)] := by
  intro disk react s a b
  have hs : s.ReportsOnce := reportsOnce_afterWatch _ _ _ _
  refine ⟨by decide +kernel, ?_⟩
  rw [hs.calls_of_move react _ _ rfl rfl]
  decide +kernel

end EditorInsight.Session
