import EditorInsight.Proofs.Cache.History
import EditorInsight.Proofs.Library.Listed
import EditorInsight.Proofs.Service.CurrentText
import EditorInsight.Proofs.Source.WellFormed
import EditorInsight.Proofs.Text.Order

/-!
# The labels that a completion offers

Symbols stand in an outline under names of their own, so they are offered once each and in order. What a folder
offers is sorted, but two of its entries may be importable under one name, and then the name is offered twice. Where
no folder has such entries, and never had while something was cached from it, no label is offered twice.
-/

namespace EditorInsight

open Text

/-! Results that follow from good answers. -/

namespace Dialogue

variable {Q R : Type} {A : Q → Type} {B : R → Type} {α β : Type} {good : (q : Q) → A q → Prop}

/-- Whenever all answers are good, the result satisfies `post`. -/
def Given (good : (q : Q) → A q → Prop) (post : α → Prop) : Dialogue Q A α → Prop
  | .done a => post a
  | .ask q next => ∀ a, good q a → (next a).Given good post

theorem given_pure {post : α → Prop} {a : α} (h : post a) : (pure a : Dialogue Q A α).Given good post := h

theorem given_of_forall {post : α → Prop} (h : ∀ a, post a) (d : Dialogue Q A α) : d.Given good post := by
  induction d with
  | done a => exact h a
  | ask q next ih => exact fun a _ => ih a

theorem given_trivial (d : Dialogue Q A α) : d.Given good fun _ => True := given_of_forall (fun _ => trivial) d

theorem given_question (q : Q) : (question q : Dialogue Q A (A q)).Given good (good q) := fun _ ha => ha

theorem given_bind {post : α → Prop} {post' : β → Prop} {d : Dialogue Q A α} {f : α → Dialogue Q A β}
    (hd : d.Given good post) (hf : ∀ a, post a → (f a).Given good post') : (d >>= f).Given good post' := by
  change (d.bind f).Given good post'
  induction d with
  | done a => exact hf a hd
  | ask q next ih => exact fun a ha => ih a (hd a ha)

theorem given_refine {good' : (r : R) → B r → Prop} {post : α → Prop} {f : (q : Q) → Dialogue R B (A q)}
    (hf : ∀ q, (f q).Given good' (good q)) {d : Dialogue Q A α} (hd : d.Given good post) :
    (d.refine f).Given good' post := by
  induction d with
  | done a => exact hd
  | ask q next ih => exact given_bind (hf q) fun a ha => ih a (hd a ha)

end Dialogue

open Dialogue

namespace Act

variable {α β : Type} {I : Running → Prop} {post : α → Prop} {post' : β → Prop}

/-- The action keeps the invariant, and a result that it has satisfies `post`. -/
def Ensures (I : Running → Prop) (post : α → Prop) (act : Act α) : Prop :=
  ∀ r, I r → I (act.run.run r).2 ∧ ∀ a, (act.run.run r).1 = .ok a → post a

theorem ensures_pure {a : α} (h : post a) : Ensures I post (pure a) := by
  refine fun r hr => ⟨hr, fun a' ha => ?_⟩
  obtain rfl := Except.ok.inj ha
  exact h

theorem ensures_throw (e : Interruption) : Ensures I post (throw e : Act α) := fun _ hr => ⟨hr, nofun⟩

theorem ensures_bind {act : Act α} {f : α → Act β} (hact : Ensures I post act)
    (hf : ∀ a, post a → Ensures I post' (f a)) : Ensures I post' (act >>= f) := by
  intro r hr
  obtain ⟨hafter, hresult⟩ := hact r hr
  rw [run_bind]
  cases hrun : act.run.run r with
  | mk result r' =>
    rw [hrun] at hafter hresult
    cases result with
    | ok a => exact hf a (hresult a rfl) r' hafter
    | error e => exact ⟨hafter, nofun⟩

theorem ensures_session_bind {f : Session → Act α} (hf : ∀ r, I r → Ensures I post (f r.session)) :
    Ensures I post (session >>= f) := by
  intro r hr
  rw [run_bind, run_session]
  exact hf r hr r hr

theorem ensures_run {Q : Type} {A : Q → Type} {answer : (q : Q) → Act (A q)} {good : (q : Q) → A q → Prop}
    (hanswer : ∀ q, Ensures I (good q) (answer q)) {d : Dialogue Q A α} (hd : d.Given good post) :
    Ensures I post (d.run answer) := by
  induction d with
  | done a => exact ensures_pure hd
  | ask q next ih => exact ensures_bind (hanswer q) fun a ha => ih a (hd a ha)

end Act

/-! Folders and outlines. -/

/-- In no folder of the tree can two entries be imported under one name. -/
def FileNode.NamesOnce (lib : Library) (top : FileNode) : Prop :=
  ∀ place cs, top.at? place = some (.folder cs) →
    ((cs.filterMap fun c => lib.child? ⟨c.1, c.2.isFolder⟩).map LibraryChild.name).Nodup

theorem FileNode.namesOnce_file (lib : Library) (bytes : List UInt8) : (file bytes).NamesOnce lib := by
  intro place cs h
  cases place <;> cases h

theorem FileNode.namesOnce_folder {lib : Library} {cs : List (Text × FileNode)}
    (hcs : ((cs.filterMap fun c => lib.child? ⟨c.1, c.2.isFolder⟩).map LibraryChild.name).Nodup)
    (h : ∀ c ∈ cs, c.2.NamesOnce lib) : (folder cs).NamesOnce lib := by
  intro place cs' hat
  cases place with
  | nil =>
    cases hat
    exact hcs
  | cons name r =>
    obtain ⟨n, hchild, hat⟩ := Option.bind_eq_some_iff.mp hat
    obtain ⟨c, hfind, rfl⟩ := Option.map_eq_some_iff.mp hchild
    exact h c (List.mem_of_find?_eq_some hfind) r cs' hat

theorem FileNode.namesOnce_singleton {lib : Library} {name : Text} {n : FileNode} (h : n.NamesOnce lib) :
    (folder [(name, n)]).NamesOnce lib := by
  refine namesOnce_folder ?_ (List.forall_mem_singleton.mpr h)
  rw [List.filterMap_cons]
  split
  · exact List.nodup_nil
  · exact List.pairwise_singleton _ _

def Library.childNames (lib : Library) (entries : List DirEntry) : List Text :=
  (sortOn LibraryChild.name (entries.filterMap lib.child?)).map LibraryChild.name

/-- No two symbols at the top level, and no two methods of a class, have the same name. -/
structure Outline.NamesOnce (o : Outline) : Prop where
  topLevel : o.topLevel.keys.Nodup
  methods : ∀ owner ms, o.methods.get? owner = some ms → ms.keys.Nodup

theorem Outline.namesOnce_outlineOf (layout : Outline.Layout) (text : Option Text) :
    (Session.outlineOf layout text).NamesOnce := by
  cases text with
  | none => exact ⟨List.nodup_nil, nofun⟩
  | some t => exact ⟨(keysDistinct_ofText layout t).topLevel, fun _ _ h => nodup_keys_methods_ofText h⟩

/-! What a completion makes of good answers. -/

namespace Workspace

variable {w : Workspace} {Ordered : List Text → Prop}

/-- The labels are names, in the order that is meant. -/
def Offers (Ordered : List Text → Prop) (items : List CompletionItem) : Prop :=
  ∃ names : List Text, items.map CompletionItem.label = names.map .text ∧ Ordered names

/-- The members of an ambient object that are offered at the cursor. -/
def ambientFor? (w : Workspace) (d : Document) (p : CursorPosition) : Option (List AmbientCompletion) :=
  (completionChain? (d.beforeCursor p.line p.column)).bind w.schema.completionsFor?

/-- The items are the members of the ambient object at the cursor, or else names. -/
def Completes (w : Workspace) (Ordered : List Text → Prop) (d : Document) (p : CursorPosition)
    (items : List CompletionItem) : Prop :=
  match w.ambientFor? d p with
  | some offered => items = offered.map ambientItem
  | none => Offers Ordered items

/-- What is listed and what is cached is in the order that is meant, and outlines have each name once. -/
def IsGood (lib : Library) (Ordered : List Text → Prop) : (q : ServiceQuestion) → q.Answer → Prop
  | .imports, names => Ordered names
  | .outline _, o => o.NamesOnce
  | .file (.list _), some entries => Ordered (lib.childNames entries)
  | _, _ => True

def IsGoodFile (lib : Library) (Ordered : List Text → Prop) (q : FileQuestion) (a : q.Answer) : Prop :=
  IsGood lib Ordered (.file q) a

theorem given_probe {α : Type} {post : α → Prop} {p : Probe α} (h : p.Given (IsGoodFile w.library Ordered) post) :
    (Inquiry.probe p).Given (IsGood w.library Ordered) post :=
  given_refine (fun q => given_question (ServiceQuestion.file q)) h

theorem given_children {lib : Library} (hnil : Ordered []) (folder : Text) :
    (lib.children folder).Given (IsGoodFile lib Ordered) fun found => Ordered (found.map LibraryChild.name) := by
  refine given_bind (given_question _) fun entries hentries => ?_
  cases entries with
  | none => exact given_pure hnil
  | some entries => exact given_pure hentries

theorem offers_symbolItems (hstrict : ∀ names, names.Pairwise (· < ·) → Ordered names)
    {m : OrderedMap Text Symbol} (h : m.keys.Nodup) : Offers Ordered (symbolItems m) := by
  refine ⟨(sortOn Prod.fst m.entries).map Prod.fst, ?_, hstrict _ (pairwise_lt_map_sortOn h)⟩
  rw [symbolItems, List.map_map, List.map_map]
  rfl

theorem offers_nil (hstrict : ∀ names, names.Pairwise (· < ·) → Ordered names) : Offers Ordered [] :=
  ⟨[], rfl, hstrict [] .nil⟩

theorem given_methodItems (hstrict : ∀ names, names.Pairwise (· < ·) → Ordered names) (chain : Text) :
    (w.methodItems chain).Given (IsGood w.library Ordered) (Offers Ordered) := by
  refine given_bind (given_trivial _) fun target _ => ?_
  split
  · rename_i path name
    refine given_bind (given_question _) fun o ho => given_pure ?_
    cases hmethods : o.methods.get? name with
    | none => exact offers_symbolItems hstrict (m := {}) List.nodup_nil
    | some ms => exact offers_symbolItems hstrict (ho.methods name ms hmethods)
  · exact given_pure (offers_nil hstrict)

theorem given_libraryItems (hstrict : ∀ names, names.Pairwise (· < ·) → Ordered names) (chain : Text) :
    (w.libraryItems chain).Given (IsGood w.library Ordered) (Offers Ordered) := by
  unfold libraryItems
  split
  · exact given_pure (offers_nil hstrict)
  · refine given_bind (given_trivial _) fun names _ => ?_
    split
    · refine given_bind (given_trivial _) fun _ _ => given_bind (given_trivial _) fun item _ => ?_
      split
      · refine given_bind (given_trivial _) fun _ _ =>
          given_bind (given_probe (given_children (hstrict [] .nil) _)) fun found hfound => given_pure ?_
        refine ⟨found.map LibraryChild.name, ?_, hfound⟩
        rw [List.map_map, List.map_map]
        rfl
      · exact given_bind (given_question _) fun o ho => given_pure (offers_symbolItems hstrict ho.topLevel)
      · exact given_methodItems hstrict chain
    · exact given_pure (offers_nil hstrict)

theorem given_complete (hstrict : ∀ names, names.Pairwise (· < ·) → Ordered names) (d : Document)
    (p : CursorPosition) :
    (w.complete d p).Given (IsGood w.library Ordered) (w.Completes Ordered d p) := by
  unfold complete Completes ambientFor?
  cases completionChain? (d.beforeCursor p.line p.column) with
  | none =>
    refine given_bind (given_question _) fun names hnames => given_pure ⟨names, ?_, hnames⟩
    rw [List.map_map]
    rfl
  | some chain =>
    dsimp only [Option.bind_some]
    cases w.schema.completionsFor? chain with
    | some offered => exact given_pure rfl
    | none => exact given_libraryItems hstrict chain

end Workspace

/-! Sessions whose caches are in order. -/

namespace Session

/-- Cached names are in the order that is meant, cached outlines have each name once, and the tree is one of those
that are admitted. -/
structure Neat (w : Workspace) (P : FileNode → Prop) (Ordered : List Text → Prop) (s : Session) : Prop where
  workspace_eq : s.workspace = w
  top : P s.disk.top
  imports : ∀ e, s.imports.slot = some e → Ordered e.names
  outlines : ∀ x ∈ s.outlines.entries, x.2.value.NamesOnce

variable {w : Workspace} {P : FileNode → Prop} {Ordered : List Text → Prop} {s s' : Session}

theorem Forgets.workspace_eq (h : s.Forgets s') : s'.workspace = s.workspace :=
  eq_of_bare_eq h.bare_eq workspace fun _ => rfl

theorem Neat.of_forgets (hs : s.Neat w P Ordered) (h : s.Forgets s') : s'.Neat w P Ordered where
  workspace_eq := h.workspace_eq.trans hs.workspace_eq
  top := by
    rw [eq_of_bare_eq h.bare_eq (fun s => s.disk.top) fun _ => rfl]
    exact hs.top
  imports e he := hs.imports e (h.imports e he)
  outlines x hx := hs.outlines x (h.outlines x hx)

theorem Neat.updateDocument (hs : s.Neat w P Ordered) (uri : Text) (version : Int) :
    (s.updateDocument uri version).Neat w P Ordered := by
  obtain ⟨versions, hversions⟩ := s.exists_versions_updateDocument uri version
  rw [hversions]
  exact ⟨hs.workspace_eq, hs.top, hs.imports, hs.outlines⟩

end Session

namespace Act

variable {w : Workspace} {P : FileNode → Prop} {Ordered : List Text → Prop}

/-- The action keeps a session neat, and a result that it has satisfies `post`. -/
def EnsuresNeat {α : Type} (w : Workspace) (P : FileNode → Prop) (Ordered : List Text → Prop) (post : α → Prop)
    (act : Act α) : Prop := Ensures (fun r => r.session.Neat w P Ordered) post act

theorem ensuresNeat_modifySession {f : Session → Session}
    (hf : ∀ s : Session, s.Neat w P Ordered → (f s).Neat w P Ordered) :
    EnsuresNeat w P Ordered (fun _ => True) (modifySession f) :=
  fun r hr => ⟨hf r.session hr, fun _ _ => trivial⟩

theorem ensuresNeat_checkpoint : EnsuresNeat w P Ordered (fun _ => True) checkpoint := by
  rintro ⟨s, t⟩ hr
  rw [run_checkpoint]
  exact ⟨hr, fun _ _ => trivial⟩

theorem ensuresNeat_perform (deed : Deed) : EnsuresNeat w P Ordered (fun _ => True) (perform deed) := by
  cases deed with
  | cancel => exact fun _ hr => ⟨hr, fun _ _ => trivial⟩
  | updateDocument uri version => exact ensuresNeat_modifySession fun s hs => hs.updateDocument uri version
  | failDisk message => exact ensures_throw _
  | changeLibrary path =>
    refine ensures_session_bind fun r hr => ?_
    have hafter := hr.of_forgets (r.session.forgets_libraryChanged path)
    refine ensures_bind (ensuresNeat_modifySession fun _ _ => hafter) fun _ _ => ?_
    split
    · exact ensures_throw _
    · exact ensures_pure trivial

theorem ensuresNeat_meetIncident (action : FileAction) :
    EnsuresNeat w P Ordered (fun _ => True) (meetIncident action) := by
  intro r hr
  rw [meetIncident, run_bind, run_get]
  dsimp only
  split
  · exact ⟨hr, fun _ _ => trivial⟩
  · split
    · exact ensuresNeat_perform _ r hr
    · exact ⟨hr, fun _ _ => trivial⟩

section Folders

-- what a folder of an admitted tree offers is in the order that is meant
variable (hfolder : ∀ (d : Disk) path entries notices, P d.top → d.list path = .ok (some entries, notices) →
  Ordered (w.library.childNames entries))
include hfolder

theorem ensuresNeat_askDisk (q : FileQuestion) :
    EnsuresNeat w P Ordered (Workspace.IsGoodFile w.library Ordered q) (askDisk q) := by
  have hasked : EnsuresNeat w P Ordered (fun _ => True) (modifyTurn fun t => { t with asked := t.asked ++ [q] }) :=
    fun _ hr => ⟨hr, fun _ _ => trivial⟩
  refine ensures_bind hasked fun _ _ => ensures_session_bind fun r hr => ?_
  split
  · exact ensures_throw _
  · rename_i answer notices hreply
    refine ensures_bind (ensuresNeat_modifySession fun s hs => ?_) fun _ _ =>
      ensures_bind (ensuresNeat_meetIncident _) fun _ _ => ensures_pure ?_
    · exact ⟨hs.workspace_eq, hs.top, hs.imports, hs.outlines⟩
    · cases q with
      | read path => trivial
      | present path => trivial
      | list path =>
        cases answer with
        | none => trivial
        | some entries => exact hfolder r.session.disk path entries notices hr.top hreply

theorem ensuresNeat_imports (hnil : Ordered []) : EnsuresNeat w P Ordered Ordered imports := by
  refine ensures_session_bind fun r hr => ?_
  have hlibrary : r.session.library = w.library := congrArg Workspace.library hr.workspace_eq
  rw [hlibrary]
  split
  · exact ensures_throw _
  · rename_i names cache hlookup
    rcases SlotCache.lookup_eq_ok hlookup with ⟨e, hslot, hfound⟩ | ⟨isRefresh, hfound, -⟩
    · cases hfound
      refine ensures_bind (ensuresNeat_modifySession fun s hs => ?_) fun _ _ => ensures_pure (hr.imports e hslot)
      exact ⟨hs.workspace_eq, hs.top, hr.imports, hs.outlines⟩
    · cases hfound
  · have hnames : w.library.importNames.Given (Workspace.IsGoodFile w.library Ordered) Ordered :=
      given_bind (Workspace.given_children hnil _) fun found hfound => given_pure hfound
    refine ensures_bind (ensures_run (ensuresNeat_askDisk hfolder) hnames) fun names hordered =>
      ensures_bind (ensuresNeat_modifySession fun s hs => ?_) fun _ _ => ensures_pure hordered
    refine ⟨hs.workspace_eq, hs.top, fun e he => ?_, hs.outlines⟩
    obtain rfl := Option.some.inj he
    exact hordered

theorem ensuresNeat_outline (path : Text) : EnsuresNeat w P Ordered Outline.NamesOnce (outline path) := by
  refine ensures_bind ensuresNeat_checkpoint fun _ _ => ensures_session_bind fun r hr => ?_
  split
  · exact ensures_throw _
  · rename_i key hkey
    split
    · exact ensures_throw _
    · rename_i o cache hlookup
      rcases KeyedCache.lookup_eq_ok hlookup with ⟨e, hfind, -, hfound⟩ | ⟨hfound, -⟩
      · cases hfound
        have hvalue := hr.outlines _ (KeyedCache.mem_of_find? hfind)
        refine ensures_bind (ensuresNeat_modifySession fun s hs => ?_) fun _ _ => ensures_pure hvalue
        refine ⟨hs.workspace_eq, hs.top, hs.imports, fun x hx => ?_⟩
        rcases List.mem_append.mp hx with hx | hx
        · exact hr.outlines x (KeyedCache.mem_without.mp hx).1
        · obtain rfl := List.mem_singleton.mp hx
          exact hvalue
      · cases hfound
    · refine ensures_bind (ensuresNeat_askDisk hfolder _) fun text _ =>
        ensures_bind ensuresNeat_checkpoint fun _ _ => ?_
      have hvalue := Outline.namesOnce_outlineOf r.session.layout text
      refine ensures_bind (ensuresNeat_modifySession fun s hs => ?_) fun _ _ => ensures_pure hvalue
      refine ⟨hs.workspace_eq, hs.top, hs.imports, fun x hx => ?_⟩
      rcases KeyedCache.mem_of_mem_settle hx with hx | ⟨rfl, -⟩
      · exact hs.outlines x hx
      · exact hvalue

theorem ensuresNeat_answer (hnil : Ordered []) (q : ServiceQuestion) :
    EnsuresNeat w P Ordered (Workspace.IsGood w.library Ordered q) (answer q) := by
  cases q with
  | checkpoint => exact ensuresNeat_checkpoint
  | imports => exact ensuresNeat_imports hfolder hnil
  | outline path => exact ensuresNeat_outline hfolder path
  | file q => exact ensuresNeat_askDisk hfolder q

theorem ensuresNeat_request (hnil : Ordered []) {k : RequestKind} {d : Document} {p : CursorPosition}
    {post : k.Result → Prop} (hnothing : post k.nothing)
    (hd : (w.inquire d p k).Given (Workspace.IsGood w.library Ordered) fun result => ∀ a, result = .ok a → post a) :
    EnsuresNeat w P Ordered post (request k d p) := by
  have hinquire : EnsuresNeat w P Ordered (fun result => ∀ a, result = some a → post a) (inquire k d p) := by
    refine ensures_bind ensuresNeat_checkpoint fun _ _ => ensures_session_bind fun r hr => ?_
    rw [hr.workspace_eq]
    refine ensures_bind (ensures_run (ensuresNeat_answer hfolder hnil) hd) fun result hresult => ?_
    split
    · rename_i a
      refine ensures_pure fun a' ha => ?_
      obtain rfl := Option.some.inj ha
      exact hresult a rfl
    · exact ensures_throw _
  intro r hr
  obtain ⟨hafter, hresult⟩ := hinquire r hr
  rw [run_request]
  refine ⟨by rwa [conclude_snd], fun a ha => ?_⟩
  rcases hrun : (inquire k d p).run.run r with ⟨(- | f) | (- | result), r'⟩ <;> rw [hrun] at ha hresult
  · obtain rfl := Except.ok.inj ha
    exact hnothing
  · cases ha
  · obtain rfl := Except.ok.inj ha
    exact hnothing
  · obtain rfl := Except.ok.inj ha
    split
    · exact hresult _ rfl result rfl
    · exact hnothing

end Folders

end Act

namespace Session

/-- The sessions that a service can come to from empty caches while every tree of files is one of those that are
admitted. -/
inductive ReachableOver (P : FileNode → Prop) : Session → Prop
  | fresh {s : Session} (h : s.IsFresh) (htop : P s.disk.top) : ReachableOver P s
  | request {s : Session} (h : ReachableOver P s) (k : RequestKind) (d : Document) (p : CursorPosition) (t : Turn) :
    ReachableOver P ((Act.request k d p).runIn s t).1
  | advance {s s' : Session} (h : ReachableOver P s) {milliseconds : Quantity}
    (hadvance : s.advance milliseconds = .ok s') : ReachableOver P s'
  | edit {s : Session} (h : ReachableOver P s) (top : FileNode) (htop : P top) :
    ReachableOver P { s with disk := { s.disk with top := top } }
  | libraryChanged {s : Session} (h : ReachableOver P s) (path : Option Text) :
    ReachableOver P (s.libraryChanged path).1
  | deliver {s : Session} (h : ReachableOver P s) (e : FileEvent) : ReachableOver P (s.deliverEvent e)
  | updateDocument {s : Session} (h : ReachableOver P s) (uri : Text) (version : Int) :
    ReachableOver P (s.updateDocument uri version)

theorem Reachable.over {s : Session} (h : s.Reachable) : s.ReachableOver fun _ => True := by
  induction h with
  | fresh h => exact .fresh h trivial
  | request _ k d p t ih => exact ih.request k d p t
  | advance _ _ hadvance ih => exact ih.advance hadvance
  | edit _ top ih => exact ih.edit top trivial
  | libraryChanged _ path ih => exact ih.libraryChanged path
  | deliver _ e ih => exact ih.deliver e
  | updateDocument _ uri version ih => exact ih.updateDocument uri version

theorem workspace_request (s : Session) (k : RequestKind) (d : Document) (p : CursorPosition) (t : Turn) :
    ((Act.request k d p).runIn s t).1.workspace = s.workspace := by
  have hstart : Running.Confined s.workspace k t.asked ⟨s, t⟩ := ⟨rfl, [], (List.append_nil _).symm, by simp⟩
  exact (Act.maintains_request d p _ hstart).workspace_eq

variable {w : Workspace} {P : FileNode → Prop} {Ordered : List Text → Prop} {s : Session}

/-- Every step that a service takes keeps its session neat. -/
theorem ReachableOver.neat (hs : s.ReachableOver P) (hnil : Ordered [])
    (hfolder : ∀ (d : Disk) path entries notices, P d.top → d.list path = .ok (some entries, notices) →
      Ordered (w.library.childNames entries)) (hw : s.workspace = w) : s.Neat w P Ordered := by
  induction hs with
  | @fresh s h htop =>
    refine ⟨hw, htop, fun e he => ?_, fun x hx => ?_⟩
    · rw [h.imports] at he
      cases he
    · rw [h.outlines] at hx
      cases hx
  | @request s _ k d p t ih =>
    have hs := ih ((workspace_request s k d p t).symm.trans hw)
    have hkeeps : Act.EnsuresNeat w P Ordered (fun _ => True) (Act.request k d p) :=
      Act.ensuresNeat_request hfolder hnil trivial (given_of_forall (fun _ _ _ => trivial) _)
    exact (hkeeps ⟨s, t⟩ hs).1
  | advance _ hadvance ih =>
    obtain ⟨clock, -, rfl⟩ := exists_clock_of_advance hadvance
    have hs := ih hw
    exact ⟨hs.workspace_eq, hs.top, hs.imports, hs.outlines⟩
  | edit _ top htop ih =>
    have hs := ih hw
    exact ⟨hs.workspace_eq, htop, hs.imports, hs.outlines⟩
  | @libraryChanged s _ path ih =>
    have hforgets := s.forgets_libraryChanged path
    exact (ih (hforgets.workspace_eq.symm.trans hw)).of_forgets hforgets
  | @deliver s _ e ih =>
    have hforgets := s.forgets_deliverEvent e
    exact (ih (hforgets.workspace_eq.symm.trans hw)).of_forgets hforgets
  | @updateDocument s _ uri version ih =>
    obtain ⟨versions, hversions⟩ := s.exists_versions_updateDocument uri version
    rw [hversions] at hw
    exact (ih hw).updateDocument uri version

theorem ReachableOver.offers (hs : s.ReachableOver P) (hstrict : ∀ names, names.Pairwise (· < ·) → Ordered names)
    (hfolder : ∀ (d : Disk) path entries notices, P d.top → d.list path = .ok (some entries, notices) →
      Ordered (s.library.childNames entries)) {d : Document} {p : CursorPosition} {t : Turn}
    {items : List CompletionItem} (h : ((Act.request .complete d p).runIn s t).2 = .ok items) :
    items = [] ∨ s.workspace.Completes Ordered d p items := by
  have hnil := hstrict [] .nil
  have hinquire : (s.workspace.inquire d p .complete).Given (Workspace.IsGood s.workspace.library Ordered)
      fun result => ∀ items, result = .ok items → items = [] ∨ s.workspace.Completes Ordered d p items := by
    refine given_bind (Workspace.given_complete hstrict d p) fun items hitems => given_pure fun a ha => ?_
    obtain rfl := Except.ok.inj ha
    exact .inr hitems
  have hneat : s.Neat s.workspace P Ordered := hs.neat hnil hfolder rfl
  exact (Act.ensuresNeat_request (w := s.workspace) hfolder hnil (.inl rfl) hinquire ⟨s, t⟩ hneat).2 items h

end Session

/-! The order of what a folder offers. -/

theorem Library.pairwise_le_childNames (lib : Library) (entries : List DirEntry) :
    (lib.childNames entries).Pairwise fun t u => le t u = true :=
  List.pairwise_map.mpr (pairwise_sortOn LibraryChild.name _)

theorem Library.nodup_childNames_iff {lib : Library} {entries : List DirEntry} :
    (lib.childNames entries).Nodup ↔ ((entries.filterMap lib.child?).map LibraryChild.name).Nodup :=
  ((List.mergeSort_perm _ _).map LibraryChild.name).nodup_iff

theorem Disk.nodup_childNames {d : Disk} {lib : Library} (hd : d.top.NamesOnce lib) {path : Text}
    {entries : List DirEntry} {notices : List FileNotice} (h : d.list path = .ok (some entries, notices)) :
    (lib.childNames entries).Nodup := by
  unfold list at h
  split at h
  · cases h
  · split at h
    · cases h
    · rename_i place cs harrive
      cases h
      have hat := (FileNode.walk_found (arrive_found harrive).2.2).2
      rw [Library.nodup_childNames_iff]
      refine (((List.mergeSort_perm _ _).filterMap lib.child?).map LibraryChild.name).nodup_iff.mpr ?_
      rw [List.filterMap_map]
      exact hd place cs hat
    · cases h

/-! What an undisturbed completion lists. -/

namespace Session

/-- The folder whose content is offered at the cursor: the library for want of cached names, or a package. -/
inductive ListsFor (s : Session) (d : Document) (p : CursorPosition) : Text → Prop
  | library (hchain : Workspace.completionChain? (d.beforeCursor p.line p.column) = none)
    (hempty : s.imports.slot = none) : ListsFor s d p s.library.root
  | package {chain first folder : Text} {rest names : List Text}
    (hchain : Workspace.completionChain? (d.beforeCursor p.line p.column) = some chain)
    (hambient : s.schema.completionsFor? chain = none) (hparts : splitDotted chain = first :: rest)
    (hnames : s.cachedAnswer .imports = .ok names) (hfirst : first ∈ names)
    (hitem : s.disk.probe (s.library.item? (first :: rest)) = .ok (some (.package folder))) : ListsFor s d p folder

variable {s : Session} {d : Document} {p : CursorPosition} {folder : Text} {entries : List DirEntry}
  {notices : List FileNotice}

theorem probe_children (hlist : s.disk.list folder = .ok (some entries, notices)) :
    s.disk.probe (s.library.children folder) =
      .ok (sortOn LibraryChild.name (entries.filterMap s.library.child?)) := by
  rw [Library.children, Disk.probe_bind, Disk.probe_list, hlist]
  rfl

theorem ListsFor.run_complete (h : s.ListsFor d p folder)
    (hlist : s.disk.list folder = .ok (some entries, notices)) :
    ∃ items, (s.workspace.complete d p).run s.cachedAnswer = .ok items ∧
      items.map CompletionItem.label = (s.library.childNames entries).map .text := by
  have hchildren := probe_children hlist
  unfold Workspace.complete
  cases h with
  | library hchain hempty =>
    have himports : s.cachedAnswer .imports = .ok (s.library.childNames entries) := by
      rw [cachedAnswer, SlotCache.lookup, hempty]
      dsimp only
      rw [directAnswer, Library.importNames, Disk.probe_bind, hchildren]
      rfl
    rw [hchain]
    dsimp only
    rw [Dialogue.run_bind, run_imports_cachedAnswer, himports]
    refine ⟨_, rfl, ?_⟩
    rw [List.map_map]
    rfl
  | @package chain first _ rest names hchain hambient hparts hnames hfirst hitem =>
    rw [hchain]
    dsimp only
    rw [show s.workspace.schema.completionsFor? _ = none from hambient, Workspace.libraryItems, hparts]
    dsimp only
    rw [Dialogue.run_bind, run_imports_cachedAnswer, hnames]
    change ∃ items, Dialogue.run s.cachedAnswer (if names.elem first then _ else _) = .ok items ∧ _
    rw [if_pos (List.elem_iff.mpr hfirst), Dialogue.run_bind]
    change ∃ items, Dialogue.run s.cachedAnswer (Inquiry.probe _ >>= _) = .ok items ∧ _
    rw [Dialogue.run_bind, run_probe_cachedAnswer,
      show s.disk.probe (s.workspace.library.item? _) = _ from hitem]
    change ∃ items, Dialogue.run s.cachedAnswer (Inquiry.checkpoint >>= _) = .ok items ∧ _
    rw [Dialogue.run_bind]
    change ∃ items, Dialogue.run s.cachedAnswer (Inquiry.probe _ >>= _) = .ok items ∧ _
    rw [Dialogue.run_bind, run_probe_cachedAnswer,
      show s.disk.probe (s.workspace.library.children _) = _ from hchildren]
    refine ⟨_, rfl, ?_⟩
    rw [Library.childNames, List.map_map, List.map_map]
    rfl

theorem ListsFor.outcome_of_complete (h : s.ListsFor d p folder) (hcurrent : s.isCurrent d.uri d.version = true)
    (hlist : s.disk.list folder = .ok (some entries, notices)) :
    ∃ items, ((Act.request .complete d p).runIn s).2 = .ok items ∧
      items.map CompletionItem.label = (s.library.childNames entries).map .text := by
  obtain ⟨items, hrun, hlabels⟩ := h.run_complete hlist
  refine ⟨items, ?_, hlabels⟩
  rw [request_eq_cachedOutcome, cachedOutcome_of_isCurrent hcurrent, cachedResult, Workspace.inquire,
    Dialogue.run_bind, hrun]
  rfl

theorem nodup_map_text_iff {names : List Text} : (names.map Value.text).Nodup ↔ names.Nodup :=
  List.nodup_map_iff fun _ _ => Value.text.inj

/-- While no folder of the library has two entries that are imported under one name, no completion offers a label
twice, and names come in strict order. Whatever the folders have, names come in order. A folder offers a name once for
each entry that is imported under it, so that it offers none twice if and only if it has no two such entries. -/
theorem labels_of_complete (s : Session) (d : Document) (p : CursorPosition) :
    (s.ReachableOver (FileNode.NamesOnce s.library) →
      (∀ chain offered, s.schema.completionsFor? chain = some offered →
        (offered.map AmbientCompletion.label).Nodup) →
      ∀ (t : Turn) (items : List CompletionItem), ((Act.request .complete d p).runIn s t).2 = .ok items →
        (items.map CompletionItem.label).Nodup ∧
        (s.workspace.ambientFor? d p = none → ∃ names : List Text,
          items.map CompletionItem.label = names.map .text ∧ names.Pairwise (· < ·))) ∧
    (s.Reachable →
      ∀ (t : Turn) (items : List CompletionItem), ((Act.request .complete d p).runIn s t).2 = .ok items →
        s.workspace.ambientFor? d p = none → ∃ names : List Text,
          items.map CompletionItem.label = names.map .text ∧ names.Pairwise fun t u => t < u ∨ t = u) ∧
    ∀ (folder : Text) (entries : List DirEntry) (notices : List FileNotice), s.ListsFor d p folder →
      s.isCurrent d.uri d.version = true → s.disk.list folder = .ok (some entries, notices) →
      ∃ items, ((Act.request .complete d p).runIn s).2 = .ok items ∧
        items.map CompletionItem.label = (s.library.childNames entries).map .text ∧
        ((items.map CompletionItem.label).Nodup ↔
          ((entries.filterMap s.library.child?).map LibraryChild.name).Nodup) := by
  refine ⟨fun hs hschema t items hitems => ?_, fun hs t items hitems hambient => ?_,
    fun folder entries notices hfor hcurrent hlist => ?_⟩
  · have hcompletes := hs.offers (fun _ h => h) (fun d path entries notices htop hlist =>
      pairwise_lt_of_nodup (s.library.pairwise_le_childNames entries) (Disk.nodup_childNames htop hlist)) hitems
    rcases hcompletes with rfl | hcompletes
    · exact ⟨List.nodup_nil, fun _ => ⟨[], rfl, .nil⟩⟩
    · unfold Workspace.Completes at hcompletes
      cases hambient : s.workspace.ambientFor? d p with
      | none =>
        rw [hambient] at hcompletes
        obtain ⟨names, hlabels, hstrict⟩ := hcompletes
        refine ⟨?_, fun _ => ⟨names, hlabels, hstrict⟩⟩
        rw [hlabels, nodup_map_text_iff]
        exact nodup_of_pairwise_lt hstrict
      | some offered =>
        rw [hambient] at hcompletes
        subst hcompletes
        obtain ⟨chain, -, hoffered⟩ := Option.bind_eq_some_iff.mp hambient
        refine ⟨?_, nofun⟩
        rw [List.map_map]
        exact hschema chain offered hoffered
  · have hweak (names : List Text) (h : names.Pairwise (· < ·)) : names.Pairwise fun t u => t < u ∨ t = u :=
      h.imp .inl
    have hcompletes := hs.over.offers hweak
      (fun _ _ entries _ _ _ => (s.library.pairwise_le_childNames entries).imp le_iff.mp) hitems
    rcases hcompletes with rfl | hcompletes
    · exact ⟨[], rfl, .nil⟩
    · rw [Workspace.Completes, hambient] at hcompletes
      exact hcompletes
  · obtain ⟨items, hrun, hlabels⟩ := hfor.outcome_of_complete hcurrent hlist
    refine ⟨items, hrun, hlabels, ?_⟩
    rw [hlabels, nodup_map_text_iff, Library.nodup_childNames_iff]

def loggerSchema : Schema where
  roots := ["logger"]
  classes := [⟨"Logger", "logger", [⟨"info", "method", "def info(self): ..."⟩], ["Level"], []⟩]

theorem nodup_labels_loggerSchema (chain : Text) (offered : List AmbientCompletion)
    (h : loggerSchema.completionsFor? chain = some offered) : (offered.map AmbientCompletion.label).Nodup := by
  obtain ⟨e, hfind, rfl⟩ := Option.map_eq_some_iff.mp h
  have hmem : e ∈ [_] := List.mem_of_find?_eq_some hfind
  obtain rfl := List.mem_singleton.mp hmem
  have hlabels : ([("info" : Text), "Level"].map Value.text).Nodup := nodup_map_text_iff.mpr (by decide)
  exact hlabels

def withLibrary (cs : List (Text × FileNode)) : Session where
  configuration := { workspace := "/w", file := "/w/.apy_intel.yml" }
  schema := loggerSchema
  disk := { top := .folder [("w", .folder [("src", .folder [("libs", .folder cs)])])] }

theorem labels_of_complete_package :
    let package : FileNode := .folder [("a.py", .file []), ("b", .folder [])]
    let s := (withLibrary [("pkg", package)]).updateDocument "/w/d.py" 3
    s.ReachableOver (FileNode.NamesOnce s.library) ∧
    ∃ items, ((Act.request .complete ⟨"/w/d.py", "pkg.", 3⟩ ⟨0, 4⟩).runIn s).2 = .ok items ∧
      items.map CompletionItem.label = [.text "a", .text "b"] ∧ (items.map CompletionItem.label).Nodup := by
  intro package s
  have hpackage : package.NamesOnce s.library := by
    apply FileNode.namesOnce_folder (by decide +kernel)
    rw [List.forall_mem_cons, List.forall_mem_singleton]
    exact ⟨FileNode.namesOnce_file _ _, FileNode.namesOnce_folder List.nodup_nil (by simp)⟩
  have hs : s.ReachableOver (FileNode.NamesOnce s.library) := by
    apply ReachableOver.updateDocument
    apply ReachableOver.fresh ⟨rfl, rfl, by decide⟩
    iterate 4 apply FileNode.namesOnce_singleton
    exact hpackage
  have hfor : s.ListsFor ⟨"/w/d.py", "pkg.", 3⟩ ⟨0, 4⟩ "/w/src/libs/pkg" := by
    have hchain : Workspace.completionChain? "pkg." = some ("pkg" : Text) := by decide +kernel
    have hparts : splitDotted "pkg" = ["pkg"] := by decide
    have hnames : s.cachedAnswer .imports = .ok ["pkg"] := by decide +kernel
    exact .package hchain rfl hparts hnames (by decide) (by decide +kernel)
  have hlist : s.disk.list "/w/src/libs/pkg" = .ok (some [⟨"a.py", false⟩, ⟨"b", true⟩], []) := by
    rw [Disk.list_of_arrive (by decide) rfl, sortOn, List.mergeSort_of_pairwise (by decide)]
    rfl
  obtain ⟨hdistinct, -, hexact⟩ := labels_of_complete s ⟨"/w/d.py", "pkg.", 3⟩ ⟨0, 4⟩
  obtain ⟨items, hrun, hlabels, -⟩ := hexact _ _ _ hfor (by decide) hlist
  refine ⟨hs, items, hrun, ?_, (hdistinct hs nodup_labels_loggerSchema _ items hrun).1⟩
  rw [hlabels, Library.childNames, sortOn, List.mergeSort_of_pairwise (by decide +kernel)]
  rfl

/-- Two files with different extensions are one module by name, and the name is offered twice. -/
theorem complete_offers_module_twice :
    let s := withLibrary [("a.apy", .file []), ("a.py", .file [])]
    s.Reachable ∧
    (∀ chain offered, s.schema.completionsFor? chain = some offered →
      (offered.map AmbientCompletion.label).Nodup) ∧
    ∃ items, ((Act.request .complete ⟨"/w/d.py", [], 0⟩ ⟨0, 0⟩).runIn s).2 = .ok items ∧
      items.map CompletionItem.label = [.text "a", .text "a"] ∧ ¬ (items.map CompletionItem.label).Nodup := by
  intro s
  have hlist : s.disk.list s.library.root = .ok (some [⟨"a.apy", false⟩, ⟨"a.py", false⟩], []) := by
    rw [Disk.list_of_arrive (by decide +kernel) rfl, sortOn, List.mergeSort_of_pairwise (by decide)]
    rfl
  have hfor : s.ListsFor ⟨"/w/d.py", [], 0⟩ ⟨0, 0⟩ s.library.root := .library (by decide +kernel) rfl
  obtain ⟨items, hrun, hlabels⟩ := hfor.outcome_of_complete (by decide) hlist
  have htwice : items.map CompletionItem.label = [.text "a", .text "a"] := by
    rw [hlabels, Library.childNames, sortOn, List.mergeSort_of_pairwise (by decide +kernel)]
    rfl
  refine ⟨.fresh ⟨rfl, rfl, by decide⟩, nodup_labels_loggerSchema, items, hrun, htwice, ?_⟩
  rw [htwice]
  simp

end Session

end EditorInsight
