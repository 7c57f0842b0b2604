import EditorInsight.Proofs.Service.Cancellation

/-!
# What a request learns from the caches

In an undisturbed request every answer depends only on the session that it starts from: a cached answer is
taken while it is fresh, any other comes from the disk. The order of the questions ensures this, since no
cache is asked again once the request has changed it.
-/

namespace EditorInsight

theorem mapError_bind {ε ε' α β : Type} (g : ε → ε') (x : Except ε α) (f : α → Except ε β) :
    (x >>= f).mapError g = x.mapError g >>= fun a => (f a).mapError g := by
  cases x <;> rfl

namespace Session

/-- The answer that a session has to a question, from its caches or from its disk. -/
def cachedAnswer (s : Session) : (q : ServiceQuestion) → Except ServiceFault q.Answer
  | .checkpoint => .ok ()
  | .imports => match s.imports.lookup s.configuration.workspace s.clock with
    | .error f => .error (.clock f)
    | .ok (.hit names _) => .ok names
    | .ok (.load _) => (s.directAnswer .imports).mapError .path
  | .outline path => match s.moduleKey path with
    | .error f => .error (.path f)
    | .ok key => match s.outlines.lookup key s.clock with
      | .error f => .error (.clock f)
      | .ok (.hit o _) => .ok o
      | .ok (.load _) => (s.directAnswer (.outline path)).mapError .path
  | .file q => (s.directAnswer (.file q)).mapError .path

theorem cachedAnswer_file (s : Session) (q : FileQuestion) :
    s.cachedAnswer (.file q) = ((s.disk.reply q).map Prod.fst).mapError .path := by
  rw [cachedAnswer, directAnswer, Disk.probe, Dialogue.run_question]

theorem cachedAnswer_outline_of_hit {s : Session} {path key : Text} {o : Outline} {cache : KeyedCache Outline}
    (hkey : s.moduleKey path = .ok key) (hlookup : s.outlines.lookup key s.clock = .ok (.hit o cache)) :
    s.cachedAnswer (.outline path) = .ok o := by
  simp only [cachedAnswer, hkey, hlookup]

theorem cachedAnswer_outline_of_load {s : Session} {path key : Text} {ticket : LoadTicket}
    (hkey : s.moduleKey path = .ok key) (hlookup : s.outlines.lookup key s.clock = .ok (.load ticket)) :
    s.cachedAnswer (.outline path) = (s.directAnswer (.outline path)).mapError .path := by
  simp only [cachedAnswer, hkey, hlookup]

theorem run_probe_cachedAnswer {α : Type} (s : Session) (p : Probe α) :
    (Inquiry.probe p).run s.cachedAnswer = (s.disk.probe p).mapError .path := by
  rw [Inquiry.probe, Dialogue.run_refine]
  induction p with
  | done a => rfl
  | ask q next ih =>
    rw [Dialogue.run, Dialogue.run_question, s.cachedAnswer_file]
    simp only [ih]
    exact (mapError_bind _ _ _).symm

theorem run_imports_cachedAnswer (s : Session) : Inquiry.imports.run s.cachedAnswer = s.cachedAnswer .imports :=
  Dialogue.run_question s.cachedAnswer .imports

theorem run_outline_cachedAnswer (s : Session) (path : Text) :
    (Inquiry.outline path).run s.cachedAnswer = s.cachedAnswer (.outline path) :=
  Dialogue.run_question s.cachedAnswer (.outline path)

/-- The names are asked for first, and the disk only if the first part is one of them. -/
theorem run_libraryTarget?_cachedAnswer {s : Session} {dotted first : Text} {rest : List Text}
    (h : Text.splitDotted dotted = first :: rest) :
    (s.workspace.libraryTarget? dotted).run s.cachedAnswer = s.cachedAnswer .imports >>= fun names =>
      if names.elem first then (s.disk.probe (s.library.target? dotted)).mapError .path else .ok none := by
  unfold Workspace.libraryTarget?
  rw [h]
  dsimp only
  rw [Dialogue.run_bind]
  change (Inquiry.imports >>= _).run s.cachedAnswer = _
  rw [Dialogue.run_bind, run_imports_cachedAnswer]
  congr 1
  funext names
  split
  · rw [Dialogue.run_bind]
    exact s.run_probe_cachedAnswer _
  · rfl

/-- The names cached for the workspace are those of the library, and their age can be told. -/
def TruthfulImports (s : Session) : Prop :=
  ∀ e, s.imports.slot = some e → e.key = s.configuration.workspace →
    (∃ age, s.clock.sub e.loadedAt = .ok age) ∧ s.disk.probe s.library.importNames = .ok e.names

theorem TruthfulImports.cachedAnswer_eq {s : Session} (hs : s.TruthfulImports) :
    s.cachedAnswer .imports = (s.disk.probe s.library.importNames).mapError .path := by
  rcases SlotCache.lookup_cases fun e he hkey => (hs e he hkey).1 with
    ⟨e, cache, hlookup, he, hkey, -⟩ | ⟨isRefresh, hlookup⟩
  · rw [cachedAnswer, hlookup, (hs e he hkey).2]
    rfl
  · rw [cachedAnswer, hlookup]
    rfl

def cachedResult (s : Session) (k : RequestKind) (d : Document) (p : CursorPosition) :
    Except ServiceFault k.Result := do
  let result ← (s.workspace.inquire d p k).run s.cachedAnswer
  result.mapError .request

/-- How the request ends, with regard to the version of its document. -/
def cachedOutcome (s : Session) (k : RequestKind) (d : Document) (p : CursorPosition) :
    Except Interruption k.Result :=
  match s.cachedResult k d p with
  | .ok result => .ok (if s.isCurrent d.uri d.version then result else k.nothing)
  | .error f => .error (.failed f)

theorem cachedOutcome_of_isCurrent {s : Session} {d : Document} (h : s.isCurrent d.uri d.version = true)
    (k : RequestKind) (p : CursorPosition) :
    s.cachedOutcome k d p = (s.cachedResult k d p).mapError .failed := by
  unfold cachedOutcome
  cases s.cachedResult k d p with
  | error f => rfl
  | ok result => exact congrArg Except.ok (if_pos h)

end Session

/-- An undisturbed request that has come to the stage in a session that was `s` at first. -/
structure Running.Keeps (s : Session) (stage : Stage) (r : Running) : Prop where
  bare_eq : r.session.bare = s.bare
  imports_eq : stage = .start → r.session.imports = s.imports
  outlines_eq : stage ≠ .outlined → r.session.outlines = s.outlines
  cancelFrom_eq : r.turn.cancelFrom = none
  incident_eq : r.turn.incident = none

namespace Act

variable {α β : Type} {s : Session} {stage stage' stage'' : Stage}

/-- From one stage the action has the expected result and brings the request to another one, unless it
fails. -/
def Recalls (s : Session) (stage stage' : Stage) (act : Act α) (expected : Except ServiceFault α) : Prop :=
  ∀ r : Running, r.Keeps s stage → ∃ r', act.run.run r = (expected.mapError .failed, r') ∧
    ∀ a, expected = .ok a → r'.Keeps s stage'

theorem recalls_pure (a : α) : Recalls s stage stage (pure a) (.ok a) :=
  fun r hr => ⟨r, rfl, fun _ _ => hr⟩

theorem recalls_fail (f : ServiceFault) : Recalls s stage stage' (fail f : Act α) (.error f) :=
  fun r _ => ⟨r, rfl, nofun⟩

theorem recalls_bind {act : Act α} {expected : Except ServiceFault α} {f : α → Act β}
    {g : α → Except ServiceFault β} (hact : Recalls s stage stage' act expected)
    (hf : ∀ a, Recalls s stage' stage'' (f a) (g a)) :
    Recalls s stage stage'' (act >>= f) (expected >>= g) := by
  intro r hr
  obtain ⟨r', hrun, hafter⟩ := hact r hr
  rw [run_bind, hrun]
  cases expected with
  | error e => exact ⟨r', rfl, nofun⟩
  | ok a => exact hf a r' (hafter a rfl)

theorem recalls_session_bind {f : Session → Act α} {expected : Except ServiceFault α}
    (hf : ∀ t : Session, t.bare = s.bare → (stage = .start → t.imports = s.imports) →
      (stage ≠ .outlined → t.outlines = s.outlines) → Recalls s stage stage' (f t) expected) :
    Recalls s stage stage' (session >>= f) expected := by
  intro r hr
  rw [run_bind, run_session]
  exact hf r.session hr.bare_eq hr.imports_eq hr.outlines_eq r hr

theorem recalls_checkpoint : Recalls s stage stage checkpoint (.ok ()) := by
  rintro ⟨t, turn⟩ hr
  have hpass : turn.cancelFrom = none := hr.cancelFrom_eq
  rw [run_checkpoint, hpass]
  exact ⟨_, rfl, fun _ _ => ⟨hr.bare_eq, hr.imports_eq, hr.outlines_eq, rfl, hr.incident_eq⟩⟩

theorem recalls_askDisk (q : FileQuestion) :
    Recalls s stage stage (askDisk q) (s.cachedAnswer (.file q)) := by
  intro r hr
  have hdisk : r.session.disk = s.disk := Session.eq_of_bare_eq hr.bare_eq Session.disk fun _ => rfl
  rw [s.cachedAnswer_file]
  simp only [askDisk, run_bind, run_modifyTurn, run_session, hdisk]
  cases s.disk.reply q with
  | error f =>
    refine ⟨_, rfl, fun a ha => ?_⟩
    cases ha
  | ok reply =>
    obtain ⟨answer, notices⟩ := reply
    simp only [run_bind, run_modifySession, meetIncident, run_get, hr.incident_eq, run_pure]
    exact ⟨_, rfl, fun _ _ => ⟨hr.bare_eq, hr.imports_eq, hr.outlines_eq, hr.cancelFrom_eq, rfl⟩⟩

theorem recalls_probe (p : Probe α) :
    Recalls s stage stage (p.run askDisk) ((s.disk.probe p).mapError .path) := by
  induction p with
  | done a => exact recalls_pure a
  | ask q next ih =>
    have hexpected : (s.disk.probe (.ask q next)).mapError ServiceFault.path =
        s.cachedAnswer (.file q) >>= fun a => (s.disk.probe (next a)).mapError .path := by
      rw [s.cachedAnswer_file]
      exact mapError_bind _ _ _
    rw [hexpected]
    exact recalls_bind (recalls_askDisk q) ih

theorem recalls_imports : Recalls s .start .listed imports (s.cachedAnswer .imports) := by
  refine recalls_session_bind fun t hbare himports _ => ?_
  have hclock : t.clock = s.clock := Session.eq_of_bare_eq hbare Session.clock fun _ => rfl
  have hconfiguration : t.configuration = s.configuration :=
    Session.eq_of_bare_eq hbare Session.configuration fun _ => rfl
  have hlibrary : t.library = s.library := Session.eq_of_bare_eq hbare Session.library fun _ => rfl
  rw [himports rfl, hclock, hconfiguration, hlibrary, Session.cachedAnswer]
  cases s.imports.lookup s.configuration.workspace s.clock with
  | error f => exact recalls_fail _
  | ok found =>
    cases found with
    | hit names cache =>
      rintro r hr
      exact ⟨_, rfl, fun _ _ => ⟨hr.bare_eq, nofun, fun _ => hr.outlines_eq nofun, hr.cancelFrom_eq,
        hr.incident_eq⟩⟩
    | load ticket =>
      dsimp only
      rw [← bind_pure ((s.directAnswer .imports).mapError ServiceFault.path)]
      refine recalls_bind (recalls_probe s.library.importNames) fun names r hr => ?_
      exact ⟨_, rfl, fun _ _ => ⟨hr.bare_eq, nofun, fun _ => hr.outlines_eq nofun, hr.cancelFrom_eq,
        hr.incident_eq⟩⟩

theorem recalls_outline (hstage : stage ≠ .outlined) (path : Text) :
    Recalls s stage .outlined (outline path) (s.cachedAnswer (.outline path)) := by
  refine recalls_bind (g := fun _ => s.cachedAnswer (.outline path)) recalls_checkpoint fun _ =>
    recalls_session_bind fun t hbare _ houtlines => ?_
  have hclock : t.clock = s.clock := Session.eq_of_bare_eq hbare Session.clock fun _ => rfl
  have hlayout : t.layout = s.layout := Session.eq_of_bare_eq hbare Session.layout fun _ => rfl
  have hkey : t.moduleKey path = s.moduleKey path :=
    Session.eq_of_bare_eq hbare (·.moduleKey path) fun _ => rfl
  rw [houtlines hstage, hclock, hlayout, hkey, Session.cachedAnswer]
  cases s.moduleKey path with
  | error f => exact recalls_fail _
  | ok key =>
    dsimp only
    cases s.outlines.lookup key s.clock with
    | error f => exact recalls_fail _
    | ok found =>
      cases found with
      | hit o cache =>
        intro r hr
        exact ⟨_, rfl, fun _ _ => ⟨hr.bare_eq, nofun, fun h => absurd rfl h, hr.cancelFrom_eq,
          hr.incident_eq⟩⟩
      | load ticket =>
        have hexpected : (s.directAnswer (.outline path)).mapError ServiceFault.path =
            s.cachedAnswer (.file (.read path)) >>= fun text => .ok (Session.outlineOf s.layout text) := by
          rw [Session.cachedAnswer, Session.directAnswer]
          exact mapError_bind _ _ _
        dsimp only
        rw [hexpected]
        refine recalls_bind (recalls_askDisk _) fun text => ?_
        refine recalls_bind (g := fun _ => .ok _) recalls_checkpoint fun _ r hr => ?_
        exact ⟨_, rfl, fun _ _ => ⟨hr.bare_eq, nofun, fun h => absurd rfl h, hr.cancelFrom_eq,
          hr.incident_eq⟩⟩

/-- Asked in order, every question gets the answer of the session that the request started from. -/
theorem recalls_run {d : Inquiry α} (hd : Inquiry.Orderly (fun _ _ => True) stage d) :
    Recalls s stage .outlined (d.run answer) (d.run s.cachedAnswer) := by
  induction d generalizing stage with
  | done a =>
    intro r hr
    exact ⟨r, rfl, fun _ _ => ⟨hr.bare_eq, nofun, fun h => absurd rfl h, hr.cancelFrom_eq,
      hr.incident_eq⟩⟩
  | ask q next ih =>
    obtain ⟨hpermits, hnext⟩ := hd
    have hanswer : Recalls s stage (stage.after q) (answer q) (s.cachedAnswer q) := by
      have hstage : stage ≠ .outlined := by
        rintro rfl
        exact hpermits
      cases q with
      | checkpoint => exact recalls_checkpoint
      | outline path => exact recalls_outline hstage path
      | file q => exact recalls_askDisk q
      | imports =>
        cases stage with
        | start => exact recalls_imports
        | listed => exact hpermits.elim
        | outlined => exact hpermits.elim
    exact recalls_bind hanswer fun a => ih a (hnext a)

theorem keeps_start (s : Session) : Running.Keeps s .start ⟨s, {}⟩ :=
  ⟨rfl, fun _ => rfl, fun _ => rfl, rfl, rfl⟩

theorem Recalls.runIn_eq {act : Act α} {expected : Except ServiceFault α}
    (h : Recalls s .start stage act expected) : (act.runIn s).2 = expected.mapError .failed := by
  obtain ⟨r, hrun, -⟩ := h ⟨s, {}⟩ (keeps_start s)
  exact congrArg Prod.fst hrun

theorem recalls_inquire (k : RequestKind) (d : Document) (p : CursorPosition) :
    Recalls s .start .outlined (inquire k d p) ((s.cachedResult k d p).map some) := by
  have hexpected : (s.cachedResult k d p).map some = Except.ok () >>= fun _ =>
      (s.workspace.inquire d p k).run s.cachedAnswer >>= fun answered =>
        (answered.mapError ServiceFault.request).map some := by
    rw [Session.cachedResult]
    cases (s.workspace.inquire d p k).run s.cachedAnswer with
    | error f => rfl
    | ok answered => rfl
  rw [hexpected]
  refine recalls_bind recalls_checkpoint fun _ => recalls_session_bind fun t hbare _ _ => ?_
  have hworkspace : t.workspace = s.workspace := Session.eq_of_bare_eq hbare Session.workspace fun _ => rfl
  rw [hworkspace]
  refine recalls_bind (recalls_run (Workspace.orderly_inquire d p k)) fun answered => ?_
  cases answered with
  | ok result => exact recalls_pure (some result)
  | error f => exact recalls_fail _

theorem run_request_fst {r : Running} (hr : r.Keeps s .start) (k : RequestKind) (d : Document)
    (p : CursorPosition) : ((request k d p).run.run r).1 = s.cachedOutcome k d p := by
  obtain ⟨r', hrun, hafter⟩ := recalls_inquire k d p r hr
  rw [run_request, hrun, Session.cachedOutcome]
  cases hresult : s.cachedResult k d p with
  | error f => rfl
  | ok result =>
    have hbare : r'.session.bare = s.bare := (hafter (some result) (by rw [hresult]; rfl)).bare_eq
    have hcurrent : r'.session.isCurrent d.uri d.version = s.isCurrent d.uri d.version :=
      Session.eq_of_bare_eq hbare (·.isCurrent d.uri d.version) fun _ => rfl
    rw [← hcurrent]
    rfl

end Act

theorem Session.request_eq_cachedOutcome (s : Session) (k : RequestKind) (d : Document) (p : CursorPosition) :
    ((Act.request k d p).runIn s).2 = s.cachedOutcome k d p :=
  Act.run_request_fst (Act.keeps_start s) k d p

end EditorInsight
