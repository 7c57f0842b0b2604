import EditorInsight.Proofs.Service.Recall
import EditorInsight.Proofs.Service.Refinement
import EditorInsight.Proofs.Source.Located

/-!
# Definitions in the current text of a module

A definition is looked for in the text that the module has now, but under the kind that a cached outline
gives it, and that outline may be of an older text. The outline of the text itself never misleads; an older
one does if the name has been declared anew as something else.
-/

namespace EditorInsight

namespace Declaration

theorem exists_locate?_of_get? {layout : Outline.Layout} {t name : Text} {s : Symbol}
    (h : (Outline.ofText layout t).topLevel.get? name = some s) :
    s.kind ∈ Workspace.declarationKinds ∧ ∃ position, locate? t s.kind name = some position := by
  rw [Outline.topLevel_get?_ofText] at h
  obtain ⟨f, hlast, rfl⟩ := Option.map_eq_some_iff.mp h
  have hname : f.symbol.name = name := by simpa using List.find?_some hlast
  have hmatch := matchesAt_of_mem_findingsOf (List.mem_reverse.mp (List.mem_of_find?_eq_some hlast))
  rw [hname] at hmatch
  have hkind : ∀ owner, f.symbol.kind ≠ .method owner := by
    intro owner hmethod
    obtain ⟨line, -, -, hdeclares⟩ := hmatch
    rw [hmethod] at hdeclares
    simp [declares] at hdeclares
  obtain ⟨found, hfound⟩ := exists_findTopLevel? 0 hmatch
  refine ⟨?_, ⟨found.1, 0⟩, ?_⟩
  · cases hk : f.symbol.kind with
    | method owner => exact absurd hk (hkind owner)
    | function => simp [Workspace.declarationKinds]
    | classDecl => simp [Workspace.declarationKinds]
    | binding => simp [Workspace.declarationKinds]
  · rw [locate?_topLevel hkind, hfound]
    rfl

end Declaration

/-! Whatever has happened to a session, its outlines were read from texts, and not later than now. -/

namespace Session

/-- The outline is of some text, and a clock can show `now` after the outline was loaded. -/
def IsSource (now : Quantity) (layout : Outline.Layout) (x : Text × CacheEntry Outline) : Prop :=
  now.Reached x.2.loadedAt ∧ ∃ text, x.2.value = outlineOf layout text

/-- A session at a time with outlines that were read from texts. -/
structure Sourced (now : Quantity) (layout : Outline.Layout) (s : Session) : Prop where
  clock_eq : s.clock = now
  layout_eq : s.layout = layout
  isForward : now.IsForward
  outlines : ∀ x ∈ s.outlines.entries, IsSource now layout x

variable {now : Quantity} {layout : Outline.Layout} {s s' : Session}

theorem Sourced.of_forgets (hs : s.Sourced now layout) (h : s.Forgets s') : s'.Sourced now layout where
  clock_eq := (eq_of_bare_eq h.bare_eq clock fun _ => rfl).trans hs.clock_eq
  layout_eq := (eq_of_bare_eq h.bare_eq Session.layout fun _ => rfl).trans hs.layout_eq
  isForward := hs.isForward
  outlines x hx := hs.outlines x (h.outlines x hx)

theorem Sourced.updateDocument (hs : s.Sourced now layout) (uri : Text) (version : Int) :
    (s.updateDocument uri version).Sourced now layout := by
  obtain ⟨versions, hversions⟩ := s.exists_versions_updateDocument uri version
  rw [hversions]
  exact ⟨hs.clock_eq, hs.layout_eq, hs.isForward, hs.outlines⟩

end Session

namespace Act

variable {α : Type} {now : Quantity} {layout : Outline.Layout}

def KeepsSourced (now : Quantity) (layout : Outline.Layout) (act : Act α) : Prop :=
  Maintains (fun r => r.session.Sourced now layout) act

theorem keepsSourced_modifySession {f : Session → Session}
    (hf : ∀ s : Session, s.Sourced now layout → (f s).Sourced now layout) :
    KeepsSourced now layout (modifySession f) := fun r hr => hf r.session hr

theorem keepsSourced_checkpoint : KeepsSourced now layout checkpoint := by
  rintro ⟨s, t⟩ hr
  rw [run_checkpoint]
  exact hr

theorem keepsSourced_perform (deed : Deed) : KeepsSourced now layout (perform deed) := by
  cases deed with
  | cancel => exact fun _ hr => hr
  | updateDocument uri version => exact keepsSourced_modifySession fun s hs => hs.updateDocument uri version
  | failDisk message => exact maintains_throw _
  | changeLibrary path =>
    refine maintains_session_bind fun r hr => ?_
    have hafter := hr.of_forgets (r.session.forgets_libraryChanged path)
    refine maintains_bind (keepsSourced_modifySession fun _ _ => hafter) fun _ => ?_
    split
    · exact maintains_throw _
    · exact maintains_pure _

theorem keepsSourced_askDisk (q : FileQuestion) : KeepsSourced now layout (askDisk q) := by
  have hmeet : KeepsSourced now layout (meetIncident q.action) := by
    refine maintains_get_bind fun r _ => ?_
    dsimp only
    split
    · exact maintains_pure _
    · split
      · exact keepsSourced_perform _
      · exact maintains_pure _
  refine maintains_bind (fun _ hr => hr) fun _ => maintains_session_bind fun r _ => ?_
  split
  · exact maintains_throw _
  · refine maintains_bind (keepsSourced_modifySession fun s hs => ?_) fun _ =>
      maintains_bind hmeet fun _ => maintains_pure _
    exact ⟨hs.clock_eq, hs.layout_eq, hs.isForward, hs.outlines⟩

theorem keepsSourced_imports : KeepsSourced now layout imports := by
  have hset (f : Session → SlotCache) :
      KeepsSourced now layout (modifySession fun s => { s with imports := f s }) :=
    keepsSourced_modifySession fun s hs => ⟨hs.clock_eq, hs.layout_eq, hs.isForward, hs.outlines⟩
  refine maintains_session_bind fun r _ => ?_
  split
  · exact maintains_throw _
  · exact maintains_bind (hset _) fun _ => maintains_pure _
  · exact maintains_bind (maintains_run_of_answers keepsSourced_askDisk _) fun _ =>
      maintains_bind (hset _) fun _ => maintains_pure _

theorem keepsSourced_outline (path : Text) : KeepsSourced now layout (outline path) := by
  refine maintains_bind keepsSourced_checkpoint fun _ => maintains_session_bind fun r hr => ?_
  split
  · exact maintains_throw _
  · rename_i key hkey
    have hages (x : Text × CacheEntry Outline) (hx : x ∈ r.session.outlines.entries) :
        ∃ age, now.sub x.2.loadedAt = .ok age := (hr.outlines x hx).1.exists_sub
    rw [hr.clock_eq, hr.layout_eq]
    rcases KeyedCache.lookup_cases hages key with ⟨e, cache, hlookup, -, hcache⟩ | ⟨isRefresh, hlookup⟩
    · rw [hlookup]
      refine maintains_bind (keepsSourced_modifySession fun s hs => ?_) fun _ => maintains_pure _
      exact ⟨hs.clock_eq, hs.layout_eq, hs.isForward, fun x hx => hr.outlines x (hcache x hx)⟩
    · rw [hlookup]
      refine maintains_bind (keepsSourced_askDisk _) fun text =>
        maintains_bind keepsSourced_checkpoint fun _ =>
          maintains_bind (keepsSourced_modifySession fun s hs => ?_) fun _ => maintains_pure _
      refine ⟨hs.clock_eq, hs.layout_eq, hs.isForward, fun x hx => ?_⟩
      rcases KeyedCache.mem_of_mem_settle hx with hx | ⟨rfl, -⟩
      · exact hs.outlines x hx
      · exact ⟨hs.isForward.reached, text, rfl⟩

theorem keepsSourced_answer (q : ServiceQuestion) : KeepsSourced now layout (answer q) := by
  cases q with
  | checkpoint => exact keepsSourced_checkpoint
  | imports => exact keepsSourced_imports
  | outline path => exact keepsSourced_outline path
  | file q => exact keepsSourced_askDisk q

theorem keepsSourced_request (k : RequestKind) (d : Document) (p : CursorPosition) :
    KeepsSourced now layout (request k d p) := by
  intro r hr
  rw [run_request, conclude_snd]
  refine maintains_bind keepsSourced_checkpoint (fun _ => maintains_session_bind fun r _ => ?_) r hr
  refine maintains_bind (maintains_run_of_answers keepsSourced_answer _) fun answered => ?_
  split
  · exact maintains_pure _
  · exact maintains_throw _

end Act

namespace Session

/-- The sessions that a service can come to from empty caches: requests may be cancelled or met by an
incident, and the files may change in any way. -/
inductive Reachable : Session → Prop
  | fresh {s : Session} (h : s.IsFresh) : Reachable s
  | request {s : Session} (h : Reachable s) (k : RequestKind) (d : Document) (p : CursorPosition) (t : Turn) :
    Reachable ((Act.request k d p).runIn s t).1
  | advance {s s' : Session} (h : Reachable s) {milliseconds : Quantity} (hforward : milliseconds.IsForward)
    (hadvance : s.advance milliseconds = .ok s') : Reachable s'
  | edit {s : Session} (h : Reachable s) (top : FileNode) :
    Reachable { s with disk := { s.disk with top := top } }
  | libraryChanged {s : Session} (h : Reachable s) (path : Option Text) : Reachable (s.libraryChanged path).1
  | deliver {s : Session} (h : Reachable s) (e : FileEvent) : Reachable (s.deliverEvent e)
  | updateDocument {s : Session} (h : Reachable s) (uri : Text) (version : Int) :
    Reachable (s.updateDocument uri version)

theorem Reachable.exists_sourced {s : Session} (h : s.Reachable) : ∃ now layout, s.Sourced now layout := by
  induction h with
  | @fresh s h =>
    refine ⟨s.clock, s.layout, rfl, rfl, h.isForward_clock, fun x hx => ?_⟩
    rw [h.outlines] at hx
    cases hx
  | @request s h k d p t ih =>
    obtain ⟨now, layout, hs⟩ := ih
    exact ⟨now, layout, Act.keepsSourced_request k d p ⟨s, t⟩ hs⟩
  | advance h hforward hadvance ih =>
    obtain ⟨now, layout, rfl, rfl, hnow, houtlines⟩ := ih
    obtain ⟨clock, hclock, rfl⟩ := exists_clock_of_advance hadvance
    refine ⟨clock, _, rfl, rfl, hnow.add hforward hclock, fun x hx => ?_⟩
    obtain ⟨hreached, hsource⟩ := houtlines x hx
    exact ⟨hreached.add hforward hclock, hsource⟩
  | edit h top ih =>
    obtain ⟨now, layout, hs⟩ := ih
    exact ⟨now, layout, hs.clock_eq, hs.layout_eq, hs.isForward, hs.outlines⟩
  | libraryChanged h path ih =>
    obtain ⟨now, layout, hs⟩ := ih
    exact ⟨now, layout, hs.of_forgets (forgets_libraryChanged _ path)⟩
  | deliver h e ih =>
    obtain ⟨now, layout, hs⟩ := ih
    exact ⟨now, layout, hs.of_forgets (forgets_deliverEvent _ e)⟩
  | updateDocument h uri version ih =>
    obtain ⟨now, layout, hs⟩ := ih
    exact ⟨now, layout, hs.updateDocument uri version⟩

/-! How a definition is looked for. -/

/-- The kinds under which a name is looked for in a module with the outline. -/
def soughtKinds (o : Outline) (name : Text) : List SymbolKind :=
  match o.topLevel.get? name with
  | some symbol => [symbol.kind]
  | none => Workspace.declarationKinds

variable {s : Session}

theorem run_targetLocation {path name text : Text} {o : Outline} (hread : (s.disk.read path).1 = some text)
    (houtline : s.cachedAnswer (.outline path) = .ok o) :
    (Workspace.targetLocation ⟨path, .member name⟩).run s.cachedAnswer =
      .ok (((Workspace.locateFirst? text name (soughtKinds o name)).map fun q =>
        ⟨path, q.line, q.column⟩).getD ⟨path, 0, 0⟩) := by
  have hprobe : (Inquiry.probe (Probe.read path)).run s.cachedAnswer = .ok (some text) := by
    rw [← hread]
    rfl
  have hrun : (Inquiry.outline path).run s.cachedAnswer = .ok o := by
    rw [← houtline]
    exact Dialogue.run_question s.cachedAnswer (.outline path)
  unfold Workspace.targetLocation soughtKinds
  rw [Dialogue.run_bind]
  change ((Inquiry.probe (Probe.read path) >>= _).run s.cachedAnswer) = _
  rw [Dialogue.run_bind, hprobe]
  change ((Inquiry.outline path >>= _).run s.cachedAnswer) = _
  rw [Dialogue.run_bind, hrun]
  change Dialogue.run s.cachedAnswer _ = _
  cases o.topLevel.get? name with
  | none =>
    dsimp only
    cases Workspace.locateFirst? text name Workspace.declarationKinds <;> rfl
  | some symbol =>
    dsimp only
    cases Workspace.locateFirst? text name [symbol.kind] <;> rfl

theorem cachedResult_definition {d : Document} {p : CursorPosition} {expression : Text} {target : Target}
    {location : Location} (htable : Cursor.tableAt? (d.lineAt p.line) p.column = none)
    (hexpression : Cursor.expressionAt? (d.lineAt p.line) p.column = some expression)
    (htarget : (s.workspace.libraryTarget? expression).run s.cachedAnswer = .ok (some target))
    (hlocation : (Workspace.targetLocation target).run s.cachedAnswer = .ok location) :
    s.cachedResult .definition d p = .ok (some location) := by
  have hrun : (s.workspace.definition d p).run s.cachedAnswer = .ok (.ok (some location)) := by
    unfold Workspace.definition Workspace.expressionLocation
    simp only [htable, hexpression, Dialogue.run_bind, htarget]
    change ((Workspace.targetLocation target >>= _).run s.cachedAnswer) = _
    rw [Dialogue.run_bind, hlocation]
    rfl
  unfold cachedResult Workspace.inquire
  rw [Dialogue.run_bind, hrun]
  rfl

theorem exists_kind_of_locateFirst? {layout : Outline.Layout} {older : Option Text} {text name : Text}
    {position : Position}
    (h : Workspace.locateFirst? text name (soughtKinds (outlineOf layout older) name) = some position) :
    ∃ kind ∈ Workspace.declarationKinds, Declaration.locate? text kind name = some position := by
  obtain ⟨kind, hmem, hlocate⟩ := List.exists_of_findSome?_eq_some h
  refine ⟨kind, ?_, hlocate⟩
  unfold soughtKinds at hmem
  split at hmem
  · rename_i symbol hsymbol
    obtain rfl := List.mem_singleton.mp hmem
    cases older with
    | none => cases hsymbol
    | some t => exact (Declaration.exists_locate?_of_get? hsymbol).1
  · exact hmem

/-- Only an outline that lists the name under another kind keeps a declared name from being found. -/
theorem locateFirst?_isNone {o : Outline} {text name : Text}
    (hdeclared : ∃ kind ∈ Workspace.declarationKinds, (Declaration.locate? text kind name).isSome) :
    (Workspace.locateFirst? text name (soughtKinds o name)).isNone =
      (o.topLevel.get? name).any fun symbol => (Declaration.locate? text symbol.kind name).isNone := by
  unfold Workspace.locateFirst? soughtKinds
  cases o.topLevel.get? name with
  | some symbol => simp
  | none =>
    obtain ⟨kind, hkind, hlocate⟩ := hdeclared
    have hfound : (Workspace.declarationKinds.findSome? fun kind => Declaration.locate? text kind name).isSome :=
      List.findSome?_isSome_iff.mpr ⟨kind, hkind, hlocate⟩
    simpa using hfound

theorem any_get?_ofText (layout : Outline.Layout) (text name : Text) :
    ((outlineOf layout (some text)).topLevel.get? name).any (fun symbol =>
      (Declaration.locate? text symbol.kind name).isNone) = false := by
  cases hget : (outlineOf layout (some text)).topLevel.get? name with
  | none => rfl
  | some symbol =>
    obtain ⟨-, position, hposition⟩ := Declaration.exists_locate?_of_get? hget
    simp [hposition]

/-- Whether a fresh outline that is cached for the module lists the name under a kind under which the text
does not declare it. -/
def misleads (s : Session) (path text name : Text) : Bool :=
  match s.moduleKey path with
  | .error _ => false
  | .ok key => match s.outlines.lookup key s.clock with
    | .ok (.hit o _) => (o.topLevel.get? name).any fun symbol =>
      (Declaration.locate? text symbol.kind name).isNone
    | _ => false

theorem misleads_of_hit {path key text name : Text} {o : Outline} {cache : KeyedCache Outline}
    (hkey : s.moduleKey path = .ok key) (hlookup : s.outlines.lookup key s.clock = .ok (.hit o cache)) :
    s.misleads path text name = (o.topLevel.get? name).any fun symbol =>
      (Declaration.locate? text symbol.kind name).isNone := by
  simp only [misleads, hkey, hlookup]

theorem misleads_of_load {path key text name : Text} {ticket : LoadTicket}
    (hkey : s.moduleKey path = .ok key) (hlookup : s.outlines.lookup key s.clock = .ok (.load ticket)) :
    s.misleads path text name = false := by
  simp only [misleads, hkey, hlookup]

/-- In a reachable session an outline can be had of a readable module: a cached one of some text, or that of
the text now. -/
theorem Reachable.exists_outline (hs : s.Reachable) {path text : Text}
    (hread : (s.disk.read path).1 = some text) :
    ∃ key o, s.moduleKey path = .ok key ∧ s.cachedAnswer (.outline path) = .ok o ∧
      ((∃ cache older, s.outlines.lookup key s.clock = .ok (.hit o cache) ∧ o = outlineOf s.layout older) ∨
        ∃ ticket, s.outlines.lookup key s.clock = .ok (.load ticket) ∧ o = outlineOf s.layout (some text)) := by
  obtain ⟨now, layout, rfl, rfl, -, houtlines⟩ := hs.exists_sourced
  have hnull : Path.hasNull path = false := by
    cases hnull : Path.hasNull path with
    | false => rfl
    | true =>
      rw [Disk.read, hnull] at hread
      cases hread
  obtain ⟨key, hkey⟩ : ∃ key, s.moduleKey path = .ok key := by
    rw [moduleKey, Path.canonical, hnull]
    exact ⟨_, rfl⟩
  rcases KeyedCache.lookup_cases (fun x hx => (houtlines x hx).1.exists_sub) key with
    ⟨e, cache, hlookup, hmem, -⟩ | ⟨isRefresh, hlookup⟩
  · obtain ⟨-, older, holder⟩ := houtlines _ hmem
    exact ⟨key, e.value, hkey, cachedAnswer_outline_of_hit hkey hlookup, .inl ⟨cache, older, hlookup, holder⟩⟩
  · refine ⟨key, outlineOf s.layout (some text), hkey, ?_, .inr ⟨_, hlookup, rfl⟩⟩
    rw [cachedAnswer_outline_of_load hkey hlookup, ← hread]
    rfl

/-- Where the current text of a module declares the name, its definition is found there, unless a cached
outline misleads; then the start of the module is given. The outline of the text itself never misleads. -/
theorem Reachable.definition_in_current_text (hs : s.Reachable) {d : Document} {p : CursorPosition}
    {expression path name text : Text} (hcurrent : s.isCurrent d.uri d.version = true)
    (htable : Cursor.tableAt? (d.lineAt p.line) p.column = none)
    (hexpression : Cursor.expressionAt? (d.lineAt p.line) p.column = some expression)
    (htarget : (s.workspace.libraryTarget? expression).run s.cachedAnswer =
      .ok (some ⟨path, .member name⟩))
    (hread : (s.disk.read path).1 = some text)
    (hdeclared : ∃ kind ∈ Workspace.declarationKinds, (Declaration.locate? text kind name).isSome) :
    let outcome := ((Act.request .definition d p).runIn s).2
    (s.misleads path text name = false → ∃ kind ∈ Workspace.declarationKinds, ∃ position,
      Declaration.locate? text kind name = some position ∧
        outcome = .ok (some ⟨path, position.line, position.column⟩)) ∧
    (s.misleads path text name = true → outcome = .ok (some ⟨path, 0, 0⟩)) ∧
    (s.cachedAnswer (.outline path) = .ok (outlineOf s.layout (some text)) →
      s.misleads path text name = false) := by
  intro outcome
  obtain ⟨key, o, hkey, houtline, hcached⟩ := hs.exists_outline hread
  have houtcome : outcome = .ok (some (((Workspace.locateFirst? text name (soughtKinds o name)).map fun q =>
      ⟨path, q.line, q.column⟩).getD ⟨path, 0, 0⟩)) := by
    have hresult := cachedResult_definition htable hexpression htarget (run_targetLocation hread houtline)
    have hrequest : outcome = _ := s.request_eq_cachedOutcome .definition d p
    rw [hrequest, cachedOutcome_of_isCurrent hcurrent, hresult]
    rfl
  obtain ⟨⟨older, holder⟩, hmisleads⟩ : (∃ older, o = outlineOf s.layout older) ∧
      s.misleads path text name = (o.topLevel.get? name).any fun symbol =>
        (Declaration.locate? text symbol.kind name).isNone := by
    rcases hcached with ⟨cache, older, hlookup, holder⟩ | ⟨ticket, hlookup, rfl⟩
    · exact ⟨⟨older, holder⟩, misleads_of_hit hkey hlookup⟩
    · exact ⟨⟨some text, rfl⟩, (misleads_of_load hkey hlookup).trans (any_get?_ofText _ _ _).symm⟩
  have hsought := hmisleads.trans (locateFirst?_isNone hdeclared).symm
  refine ⟨fun hnot => ?_, fun hmisled => ?_, fun htext => ?_⟩
  · rw [hsought] at hnot
    obtain ⟨position, hposition⟩ := Option.isSome_iff_exists.mp (Option.isNone_eq_false_iff.mp hnot)
    rw [holder] at hposition
    obtain ⟨kind, hkind, hlocate⟩ := exists_kind_of_locateFirst? hposition
    refine ⟨kind, hkind, position, hlocate, ?_⟩
    rw [houtcome, holder, hposition]
    rfl
  · rw [hsought] at hmisled
    rw [houtcome, Option.isNone_iff_eq_none.mp hmisled]
    rfl
  · obtain rfl := Except.ok.inj (houtline.symm.trans htext)
    rw [hmisleads]
    exact any_get?_ofText _ _ _

/-- A module with a function `f`, of which a definition has been asked for before the text was replaced. -/
def rewritten (text : Text) : Session :=
  let s := ((Act.request .definition ⟨"/w/d.py", "m.f", 0⟩ ⟨0, 3⟩).runIn oneModule).1
  { s with disk := { s.disk with top := .folder [("w", .folder [("src", .folder [("libs", .folder
    [("m.py", .file (Text.encodeUtf8 text))])])])] } }

theorem reachable_rewritten (text : Text) : (rewritten text).Reachable := by
  apply Reachable.edit
  apply Reachable.request
  exact .fresh ⟨rfl, rfl, by decide⟩

theorem Reachable.definition_in_current_text_moved :
    let text : Text := "x = 1\n\ndef f(b):\n    pass\n"
    let s := rewritten text
    s.outlines.entries ≠ [] ∧ s.misleads "/w/src/libs/m.py" text "f" = false ∧
      ∃ kind ∈ Workspace.declarationKinds, ∃ position, Declaration.locate? text kind "f" = some position ∧
        ((Act.request .definition ⟨"/w/d.py", "m.f", 0⟩ ⟨0, 3⟩).runIn s).2 =
          .ok (some ⟨"/w/src/libs/m.py", position.line, position.column⟩) := by
  intro text s
  have htarget : (s.workspace.libraryTarget? "m.f").run s.cachedAnswer =
      .ok (some ⟨"/w/src/libs/m.py", .member "f"⟩) := by decide +kernel
  have hread : (s.disk.read "/w/src/libs/m.py").1 = some text := by decide +kernel
  have hmisleads : s.misleads "/w/src/libs/m.py" text "f" = false := by decide +kernel
  refine ⟨by decide +kernel, hmisleads, ?_⟩
  exact ((reachable_rewritten text).definition_in_current_text (by decide +kernel) (by decide +kernel)
    (by decide +kernel) htarget hread (by decide +kernel)).1 hmisleads

/-- A function that has become a class is not found, although the text declares it. -/
theorem Reachable.definition_misses_redeclared :
    let text : Text := "x = 1\nclass f:\n"
    let s := rewritten text
    s.Reachable ∧ s.isCurrent "/w/d.py" 0 = true ∧ Cursor.tableAt? "m.f" 3 = none ∧
      Cursor.expressionAt? "m.f" 3 = some "m.f" ∧
      (s.workspace.libraryTarget? "m.f").run s.cachedAnswer =
        .ok (some ⟨"/w/src/libs/m.py", .member "f"⟩) ∧
      (s.disk.read "/w/src/libs/m.py").1 = some text ∧
      Declaration.locate? text .classDecl "f" = some ⟨1, 0⟩ ∧
      (∀ kind ∈ Workspace.declarationKinds, Declaration.locate? text kind "f" ≠ some ⟨0, 0⟩) ∧
      ((Act.request .definition ⟨"/w/d.py", "m.f", 0⟩ ⟨0, 3⟩).runIn s).2 =
        .ok (some ⟨"/w/src/libs/m.py", 0, 0⟩) := by
  intro text s
  have hcurrent : s.isCurrent "/w/d.py" 0 = true := by decide +kernel
  have hresult : (s.cachedResult .definition ⟨"/w/d.py", "m.f", 0⟩ ⟨0, 3⟩ :
      Except ServiceFault (Option Location)) = .ok (some ⟨"/w/src/libs/m.py", 0, 0⟩) := by
    decide +kernel
  refine ⟨reachable_rewritten text, hcurrent, by decide +kernel, by decide +kernel, by decide +kernel,
    by decide +kernel, by decide +kernel, by decide +kernel, ?_⟩
  rw [request_eq_cachedOutcome, cachedOutcome_of_isCurrent hcurrent, hresult]
  rfl

end Session
end EditorInsight
