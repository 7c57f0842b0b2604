import EditorInsight.Proofs.Service.Coherence
import EditorInsight.Proofs.Service.Questions
import EditorInsight.Service.Turn

/-!
# Requests that nothing disturbs

While nothing is cancelled and nothing happens to the disk, a session with coherent caches answers every
question of a request as the disk would, and its caches stay coherent: what it finds in them is right, and
what it puts there it has just read.
-/

namespace EditorInsight

/-- A running request with coherent caches that is neither cancelled nor met by an incident. `base` is the
session without what it remembers. -/
structure Running.Undisturbed (base : Session) (r : Running) : Prop where
  bare_eq : r.session.bare = base
  coherent : r.session.Coherent []
  cancelFrom_eq : r.turn.cancelFrom = none
  incident_eq : r.turn.incident = none

/-- A module path names a place: the key of the module is the path of that place, and reading it gives
the text there. -/
theorem Session.exists_modulePlace {s : Session} (hs : s.IsWatched) {path : Text}
    (hpath : s.library.IsModulePath s.disk path) :
    ∃ place, (∀ name ∈ place, Path.IsPlain name) ∧ HasExtension s.library.extensions place ∧
      s.moduleKey path = .ok (Path.ofPlace place) ∧
      s.disk.probe (Probe.read path) = .ok (s.disk.textAt place) := by
  obtain ⟨hnull, place, bytes, harrive, e, he, name, hname, hsuffix⟩ := hpath
  have hplace := Disk.place_of_arrive harrive
  refine ⟨place, ?_, ⟨name, hname, e, he, Text.suffix_lower (hs.lower_extension e he) hsuffix⟩, ?_, ?_⟩
  · rw [hplace]
    exact Path.isPlain_of_mem_place hs.isPlain_current path
  · rw [moduleKey, Path.canonical, hnull, ← hplace]
    rfl
  · rw [Disk.probe_read, Disk.read_of_arrive harrive hnull]

namespace Act

variable {α β : Type} {base : Session}

/-- Undisturbed, the action has the expected result and leaves the request undisturbed. -/
def Faithful (base : Session) (act : Act α) (expected : Except Path.Fault α) : Prop :=
  ∀ r : Running, r.Undisturbed base →
    (act.run.run r).1 = expected.mapError (fun f => .failed (.path f)) ∧
      (act.run.run r).2.Undisturbed base

theorem run_pure (a : α) (r : Running) : (pure a : Act α).run.run r = (.ok a, r) := rfl

theorem run_get (r : Running) : (get : Act Running).run.run r = (.ok r, r) := rfl

theorem run_session (r : Running) : session.run.run r = (.ok r.session, r) := rfl

theorem run_modifySession (f : Session → Session) (r : Running) :
    (modifySession f).run.run r = (.ok (), { r with session := f r.session }) := rfl

theorem run_modifyTurn (f : Turn → Turn) (r : Running) :
    (modifyTurn f).run.run r = (.ok (), { r with turn := f r.turn }) := rfl

theorem run_bind (act : Act α) (f : α → Act β) (r : Running) :
    (act >>= f).run.run r = match act.run.run r with
      | (.ok a, r) => (f a).run.run r
      | (.error e, r) => (.error e, r) := by
  unfold ExceptT.run StateT.run
  simp only [bind, ExceptT.bind, ExceptT.mk, StateT.bind, ExceptT.bindCont]
  cases act r with
  | mk result r' => cases result <;> rfl

theorem faithful_pure (a : α) : Faithful base (pure a) (.ok a) := fun _ hr => ⟨rfl, hr⟩

theorem faithful_bind {act : Act α} {expected : Except Path.Fault α} {f : α → Act β}
    {g : α → Except Path.Fault β} (hact : Faithful base act expected)
    (hf : ∀ a, expected = .ok a → Faithful base (f a) (g a)) :
    Faithful base (act >>= f) (expected >>= g) := by
  intro r hr
  obtain ⟨hresult, hafter⟩ := hact r hr
  rw [run_bind]
  cases hrun : act.run.run r with
  | mk result r' =>
    rw [hrun] at hresult hafter
    cases expected with
    | error e =>
      obtain rfl : result = .error (.failed (.path e)) := hresult
      exact ⟨rfl, hafter⟩
    | ok a =>
      obtain rfl : result = .ok a := hresult
      exact hf a rfl r' hafter

/-- A dialogue whose questions are answered faithfully has the expected result. -/
theorem faithful_run {Q : Type} {A : Q → Type} {answer : (q : Q) → Act (A q)}
    {expected : (q : Q) → Except Path.Fault (A q)} {p : Q → Prop}
    (hanswer : ∀ q, p q → Faithful base (answer q) (expected q)) {d : Dialogue Q A α}
    (hd : d.Asks expected p) : Faithful base (d.run answer) (d.run expected) := by
  induction d with
  | done a => exact faithful_pure a
  | ask q next ih => exact faithful_bind (hanswer q hd.1) fun a ha => ih a (hd.2 a ha)

theorem faithful_checkpoint : Faithful base checkpoint (.ok ()) := by
  intro r hr
  have hrun : checkpoint.run.run r =
      (.ok (), { r with turn := { r.turn with checkpoints := r.turn.checkpoints + 1 } }) := by
    simp only [checkpoint, run_bind, run_get, run_modifyTurn, hr.cancelFrom_eq, Option.any_none,
      Bool.false_eq_true, if_false, run_pure]
  rw [hrun]
  exact ⟨rfl, hr.bare_eq, hr.coherent, hr.cancelFrom_eq, hr.incident_eq⟩

theorem faithful_askDisk (q : FileQuestion) :
    Faithful base (askDisk q) (base.disk.probe (Dialogue.question q)) := by
  intro r hr
  have hdisk : r.session.disk = base.disk := by
    rw [← hr.bare_eq]
    rfl
  rw [Disk.probe, Dialogue.run_question]
  simp only [askDisk, run_bind, run_modifyTurn, run_session, hdisk]
  cases hreply : base.disk.reply q with
  | error f => exact ⟨rfl, hr.bare_eq, hr.coherent, hr.cancelFrom_eq, hr.incident_eq⟩
  | ok reply =>
    obtain ⟨answer, notices⟩ := reply
    simp only [run_bind, run_modifySession, meetIncident, run_get, hr.incident_eq, run_pure]
    exact ⟨rfl, hr.bare_eq, hr.coherent.of_forgets ⟨rfl, fun _ h => h, fun _ h => h⟩,
      hr.cancelFrom_eq, rfl⟩

theorem faithful_probe (base : Session) (p : Probe α) : Faithful base (p.run askDisk) (base.disk.probe p) := by
  refine faithful_run (p := fun _ => True) (fun q _ => ?_) ?_
  · rw [← Dialogue.run_question (m := Except Path.Fault) (fun q => (base.disk.reply q).map Prod.fst) q]
    exact faithful_askDisk q
  · induction p with
    | done a => trivial
    | ask q next ih => exact ⟨trivial, fun a _ => ih a⟩

theorem faithful_settle_imports {names : List Text} (isRefresh : Bool)
    (hnames : base.disk.probe base.library.importNames = .ok names) :
    Faithful base (do
      modifySession fun s => { s with
        imports := s.imports.settle ⟨base.configuration.workspace, base.clock, isRefresh⟩ names }
      return names) (.ok names) := by
  rintro r ⟨rfl, hcoherent, hcancel, hincident⟩
  refine ⟨rfl, rfl, ⟨hcoherent.isForward_clock, hcoherent.outlines, ?_⟩, hcancel, hincident⟩
  intro e he
  obtain rfl := Option.some.inj he
  exact ⟨rfl, hcoherent.isForward_clock.reached, .inl hnames⟩

theorem faithful_imports : Faithful base imports (base.directAnswer .imports) := by
  intro r hr
  obtain ⟨rfl, hcoherent, hcancel, hincident⟩ := id hr
  have hage (e : SlotEntry) (he : r.session.imports.slot = some e)
      (_ : e.key = r.session.configuration.workspace) : ∃ age, r.session.clock.sub e.loadedAt = .ok age := by
    obtain ⟨-, hreached, -⟩ := hcoherent.imports e he
    exact hreached.exists_sub
  unfold imports
  rw [run_bind, run_session]
  dsimp only
  rcases SlotCache.lookup_cases hage with ⟨e, cache, hlookup, he, -, hcache⟩ | ⟨isRefresh, hlookup⟩
  · -- Nothing is pending, so the names in the slot are those on the disk.
    obtain ⟨-, -, hnames | ⟨_, hpending, -⟩⟩ := hcoherent.imports e he
    · have hexpected : r.session.bare.directAnswer .imports = .ok e.names := hnames
      rw [hlookup, hexpected]
      refine ⟨rfl, rfl, hcoherent.of_forgets ⟨rfl, fun _ h => h, fun e' he' => ?_⟩, hcancel, hincident⟩
      rw [he, ← hcache]
      exact he'
    · cases hpending
  · rw [hlookup]
    have hload := faithful_bind (faithful_probe r.session.bare r.session.library.importNames)
      fun names hnames => faithful_settle_imports isRefresh hnames
    rw [← bind_pure (r.session.bare.directAnswer .imports)]
    exact hload r hr

theorem faithful_settle_outline {place : List Text} (hplain : ∀ name ∈ place, Path.IsPlain name)
    (hextension : HasExtension base.library.extensions place) (generation : Nat) (isRefresh : Bool) :
    Faithful base (do
      modifySession fun s => { s with
        outlines := s.outlines.settle ⟨Path.ofPlace place, base.clock, generation, isRefresh⟩
          (Session.outlineOf base.layout (base.disk.textAt place)) }
      return Session.outlineOf base.layout (base.disk.textAt place))
      (.ok (Session.outlineOf base.layout (base.disk.textAt place))) := by
  rintro r ⟨rfl, hcoherent, hcancel, hincident⟩
  refine ⟨rfl, rfl, ⟨hcoherent.isForward_clock, ?_, hcoherent.imports⟩, hcancel, hincident⟩
  intro x hx
  rcases KeyedCache.mem_of_mem_settle hx with hx | ⟨rfl, -⟩
  · exact hcoherent.outlines x hx
  · exact ⟨hcoherent.isForward_clock.reached, place, hplain, hextension, rfl, .inl rfl⟩

theorem faithful_load_outline {path : Text} {place : List Text}
    (hplain : ∀ name ∈ place, Path.IsPlain name)
    (hextension : HasExtension base.library.extensions place)
    (hread : base.disk.probe (Probe.read path) = .ok (base.disk.textAt place)) (generation : Nat)
    (isRefresh : Bool) :
    Faithful base (do
      let text ← askDisk (.read path)
      checkpoint
      let o := Session.outlineOf base.layout text
      modifySession fun s => { s with
        outlines := s.outlines.settle ⟨Path.ofPlace place, base.clock, generation, isRefresh⟩ o }
      return o) (.ok (Session.outlineOf base.layout (base.disk.textAt place))) := by
  have hask : Faithful base (askDisk (.read path)) (base.disk.probe (Probe.read path)) :=
    faithful_askDisk _
  rw [hread] at hask
  refine faithful_bind (g := fun _ => .ok _) hask fun text htext => ?_
  obtain rfl := Except.ok.inj htext
  refine faithful_bind (g := fun _ => .ok _) faithful_checkpoint fun _ _ => ?_
  exact faithful_settle_outline hplain hextension generation isRefresh

theorem faithful_outline (hwatched : base.IsWatched) {path : Text}
    (hpath : base.library.IsModulePath base.disk path) :
    Faithful base (outline path) (base.directAnswer (.outline path)) := by
  obtain ⟨place, hplain, hextension, hkey, hread⟩ := Session.exists_modulePlace hwatched hpath
  have hexpected : base.directAnswer (.outline path) =
      .ok (Session.outlineOf base.layout (base.disk.textAt place)) := by
    rw [Session.directAnswer, hread]
    rfl
  rw [hexpected]
  refine faithful_bind (g := fun _ => .ok _) faithful_checkpoint fun _ _ => ?_
  intro r hr
  obtain ⟨rfl, hcoherent, hcancel, hincident⟩ := id hr
  rw [run_bind, run_session]
  dsimp only
  have hkey : r.session.moduleKey path = .ok (Path.ofPlace place) := hkey
  rw [hkey]
  dsimp only
  have hages (x : Text × CacheEntry Outline) (hx : x ∈ r.session.outlines.entries) :
      ∃ age, r.session.clock.sub x.2.loadedAt = .ok age := (hcoherent.outlines x hx).1.exists_sub
  rcases KeyedCache.lookup_cases hages (Path.ofPlace place) with
    ⟨e, cache, hlookup, he, hcache⟩ | ⟨isRefresh, hlookup⟩
  · -- The entry found belongs to the same place, since places are told apart by their paths.
    obtain ⟨-, place', hplain', -, hsame, hvalue | ⟨_, hpending, -⟩⟩ := hcoherent.outlines _ he
    · obtain rfl := Path.ofPlace_injective hplain hplain' hsame
      rw [hlookup]
      exact ⟨congrArg Except.ok hvalue, rfl, hcoherent.of_forgets ⟨rfl, hcache, fun _ h => h⟩, hcancel,
        hincident⟩
    · cases hpending
  · rw [hlookup]
    exact faithful_load_outline hplain hextension hread r.session.outlines.generation isRefresh r hr

theorem faithful_answer (hwatched : base.IsWatched) (q : ServiceQuestion) (hq : base.Admits q) :
    Faithful base (answer q) (base.directAnswer q) := by
  cases q with
  | checkpoint => exact faithful_checkpoint
  | imports => exact faithful_imports
  | outline path => exact faithful_outline hwatched hq
  | file q => exact faithful_askDisk q

/-! Requests. -/

theorem run_tryCatch (act : Act α) (handler : Interruption → Act α) (r : Running) :
    (tryCatch act handler).run.run r = match act.run.run r with
      | (.ok a, r) => (.ok a, r)
      | (.error e, r) => (handler e).run.run r := by
  unfold ExceptT.run StateT.run
  simp only [tryCatch, tryCatchThe, MonadExceptOf.tryCatch, ExceptT.tryCatch, ExceptT.mk, bind,
    StateT.bind]
  cases act r with
  | mk result r' => cases result <;> rfl

theorem run_unlessCancelled (empty : α) {act : Act α} {r r' : Running} {result : Except ServiceFault α}
    (h : act.run.run r = (result.mapError .failed, r')) :
    (unlessCancelled empty act).run.run r = (result.mapError .failed, r') := by
  rw [unlessCancelled, run_tryCatch, h]
  cases result <;> rfl

/-- What a request does before it looks at the version of its document. -/
def inquire (k : RequestKind) (d : Document) (p : CursorPosition) : Act (Option k.Result) := do
  checkpoint
  match ← ((← session).workspace.inquire d p k).run answer with
  | .ok result => return some result
  | .error f => fail (.request f)

theorem request_eq (k : RequestKind) (d : Document) (p : CursorPosition) :
    request k d p = (do
      match ← unlessCancelled none (inquire k d p) with
      | some result => return if (← session).isCurrent d.uri d.version then result else k.nothing
      | none => return k.nothing) := rfl

/-- How a request ends, by how its inquiry ends. -/
def conclude (k : RequestKind) (d : Document) :
    Except Interruption (Option k.Result) × Running → Except Interruption k.Result × Running
  | (.ok (some result), r) =>
    (.ok (if r.session.isCurrent d.uri d.version then result else k.nothing), r)
  | (.ok none, r) => (.ok k.nothing, r)
  | (.error .cancelled, r) => (.ok k.nothing, r)
  | (.error (.failed f), r) => (.error (.failed f), r)

theorem conclude_snd (k : RequestKind) (d : Document)
    (ended : Except Interruption (Option k.Result) × Running) : (conclude k d ended).2 = ended.2 := by
  rcases ended with ⟨(- | f) | (- | result), r⟩ <;> rfl

theorem run_request (k : RequestKind) (d : Document) (p : CursorPosition) (r : Running) :
    (request k d p).run.run r = conclude k d ((inquire k d p).run.run r) := by
  rw [request_eq, run_bind, unlessCancelled, run_tryCatch]
  cases (inquire k d p).run.run r with
  | mk ended r' =>
    cases ended with
    | ok result => cases result <;> rfl
    | error e => cases e <;> rfl

/-- Undisturbed, an inquiry has the result that comes straight from the disk. -/
theorem run_inquire (hwatched : base.IsWatched) {r : Running} (hr : r.Undisturbed base)
    (k : RequestKind) (d : Document) (p : CursorPosition) :
    ∃ r', r'.Undisturbed base ∧ (inquire k d p).run.run r =
      ((base.directResult k d p).map some |>.mapError .failed, r') := by
  have hinquiry : Faithful base ((base.workspace.inquire d p k).run answer)
      ((base.workspace.inquire d p k).run base.directAnswer) :=
    faithful_run (faithful_answer hwatched) (Session.asks_inquire hwatched.slash_not_mem d p k)
  obtain ⟨hpassed, hr₁⟩ := faithful_checkpoint r hr
  cases hrun₁ : checkpoint.run.run r with
  | mk passed r₁ =>
    rw [hrun₁] at hpassed hr₁
    obtain rfl : passed = .ok () := hpassed
    obtain ⟨hanswer, hr₂⟩ := hinquiry r₁ hr₁
    cases hrun₂ : ((base.workspace.inquire d p k).run answer).run.run r₁ with
    | mk result r₂ =>
      rw [hrun₂] at hanswer hr₂
      have hworkspace : r₁.session.workspace = base.workspace := by
        rw [← hr₁.bare_eq]
        rfl
      refine ⟨r₂, hr₂, ?_⟩
      unfold inquire Session.directResult
      simp only [run_bind, hrun₁, run_session, hworkspace, hrun₂]
      cases hdirect : (base.workspace.inquire d p k).run base.directAnswer with
      | error f =>
        rw [hdirect] at hanswer
        obtain rfl : result = .error (.failed (.path f)) := hanswer
        rfl
      | ok answered =>
        rw [hdirect] at hanswer
        obtain rfl : result = .ok answered := hanswer
        cases answered <;> rfl

end Act

namespace Session

/-- What a request gets from a service that caches nothing: the answer straight from the disk, unless
another version of the document is the latest one. -/
def directOutcome (s : Session) (k : RequestKind) (d : Document) (p : CursorPosition) :
    Except Interruption k.Result :=
  match s.directResult k d p with
  | .ok result => .ok (if s.isCurrent d.uri d.version then result else k.nothing)
  | .error f => .error (.failed f)

open Act

/-- A session with coherent caches answers a request as a service without caches does, and its caches
stay coherent. -/
theorem Coherent.request {s : Session} (h : s.Coherent []) (hs : s.IsWatched) (k : RequestKind)
    (d : Document) (p : CursorPosition) :
    ∃ s', s'.bare = s.bare ∧ s'.Coherent [] ∧
      (Act.request k d p).runIn s = (s', s.directOutcome k d p) := by
  have hstart : Running.Undisturbed s.bare { session := s } := ⟨rfl, h, rfl, rfl⟩
  have hbare : s.bare.IsWatched := IsWatched.of_bare (show s.bare.bare = s.bare from rfl) hs
  obtain ⟨r, hr, hrun⟩ := run_inquire hbare hstart k d p
  have hdirect : s.bare.directResult k d p = s.directResult k d p := rfl
  have hcurrent : r.session.isCurrent d.uri d.version = s.isCurrent d.uri d.version :=
    eq_of_bare_eq hr.bare_eq (·.isCurrent d.uri d.version) fun _ => rfl
  refine ⟨r.session, hr.bare_eq, hr.coherent, ?_⟩
  rw [hdirect] at hrun
  unfold directOutcome runIn
  rw [request_eq, run_bind, run_unlessCancelled none hrun]
  cases s.directResult k d p with
  | error f => rfl
  | ok result =>
    rw [← hcurrent]
    rfl

end Session
end EditorInsight
