import EditorInsight.Proofs.Service.Undisturbed
import EditorInsight.Proofs.Source.CursorWords

/-!
# What a document can make a request look at

A request takes the names that it looks for from a document, which may say anything. Whatever it says, and
whatever is answered, cached or interrupted, the request looks only at the root of the library, at what
words lead to from there, and at schema files of tables.
-/

namespace EditorInsight

open Text

namespace Dialogue

variable {Q R : Type} {A : Q → Type} {B : R → Type} {α β : Type} {p : Q → Prop}

/-- Whatever is answered, every question satisfies `p` and the result satisfies `post`. -/
def Within (p : Q → Prop) (post : α → Prop) : Dialogue Q A α → Prop
  | .done a => post a
  | .ask q next => p q ∧ ∀ a, (next a).Within p post

theorem within_pure {post : α → Prop} {a : α} (h : post a) :
    (pure a : Dialogue Q A α).Within p post := h

theorem within_question {q : Q} (h : p q) :
    (question q : Dialogue Q A (A q)).Within p fun _ => True := ⟨h, fun _ => trivial⟩

theorem within_bind {post : α → Prop} {post' : β → Prop} {d : Dialogue Q A α}
    {f : α → Dialogue Q A β} (hd : d.Within p post) (hf : ∀ a, post a → (f a).Within p post') :
    (d >>= f).Within p post' := by
  change (d.bind f).Within p post'
  induction d with
  | done a => exact hf a hd
  | ask q next ih => exact ⟨hd.1, fun a => ih a (hd.2 a)⟩

theorem within_pure_bind {post : β → Prop} {f : α → Dialogue Q A β} (a : α)
    (hf : ∀ a, (f a).Within p post) : (pure a >>= f).Within p post := hf a

theorem within_refine {p' : R → Prop} {post : α → Prop} {f : (q : Q) → Dialogue R B (A q)}
    (hf : ∀ q, p q → (f q).Within p' fun _ => True) {d : Dialogue Q A α} (hd : d.Within p post) :
    (d.refine f).Within p' post := by
  induction d with
  | done a => exact hd
  | ask q next ih => exact within_bind (hf q hd.1) fun a _ => ih a (hd.2 a)

end Dialogue

open Dialogue

/-- The names that a request can take from a document: words, behind the last of which a completion may
have empty brackets. -/
def RequestKind.Names (k : RequestKind) (parts : List Text) : Prop :=
  ∃ init last, parts = init ++ [last] ∧ (∀ w ∈ init, IsWord w) ∧
    (IsWord last ∨ k = .complete ∧ ∃ w, IsWord w ∧ last = w ++ "[]")

namespace RequestKind

variable {k : RequestKind} {parts : List Text}

theorem names_of_isWord (hne : parts ≠ []) (h : ∀ w ∈ parts, IsWord w) : k.Names parts := by
  obtain ⟨init, last, rfl⟩ := (List.eq_nil_or_concat parts).resolve_left hne
  rw [List.concat_eq_append] at h ⊢
  exact ⟨init, last, rfl, fun w hw => h w (by simp [hw]), Or.inl (h last (by simp))⟩

theorem Names.take (h : k.Names parts) (j : Nat) : k.Names (parts.take (j + 1)) := by
  obtain ⟨init, last, rfl, hinit, hlast⟩ := h
  by_cases hj : j + 1 ≤ init.length
  · rw [List.take_append_of_le_length hj]
    refine names_of_isWord ?_ fun w hw => hinit w (List.mem_of_mem_take hw)
    intro hnil
    have hlength := congrArg List.length hnil
    rw [List.length_take, List.length_nil] at hlength
    omega
  · rw [List.take_of_length_le (by simp; omega)]
    exact ⟨init, last, rfl, hinit, hlast⟩

theorem Names.isProper (h : k.Names parts) : ∀ name ∈ parts, Path.IsProper name := by
  have hword {w : Text} (hw : IsWord w) : Path.IsProper w := by
    simpa using hw.isProper_append (e := []) (by simp) (by simp)
  obtain ⟨init, last, rfl, hinit, hlast⟩ := h
  intro name hname
  rcases List.mem_append.mp hname with hname | hname
  · exact hword (hinit name hname)
  · obtain rfl := List.mem_singleton.mp hname
    rcases hlast with hlast | ⟨-, w, hw, rfl⟩
    · exact hword hlast
    · exact hw.isProper_append (by decide) (by decide)

end RequestKind

def LibraryItem.path : LibraryItem → Text
  | .package path => path
  | .moduleFile path _ => path

namespace Workspace

/-- The paths that a request may ask about. -/
inductive Confined (w : Workspace) (k : RequestKind) : Text → Prop
  | root : Confined w k w.library.root
  | package {parts : List Text} (hparts : k.Names parts) :
    Confined w k (Path.join w.library.root parts)
  | moduleFile {init : List Text} {name e : Text} (hparts : k.Names (init ++ [name]))
    (he : e ∈ w.library.extensions) : Confined w k (Path.join w.library.root (init ++ [name ++ e]))
  | table {name : Text} (hk : k = .definition) (hname : isIdentifier name = true) :
    Confined w k (Path.append w.tablesRoot (name ++ ".yaml"))

def MayAsk (w : Workspace) (k : RequestKind) (q : FileQuestion) : Prop := w.Confined k q.path

def MayInquire (w : Workspace) (k : RequestKind) : ServiceQuestion → Prop
  | .outline path => w.Confined k path
  | .file q => w.MayAsk k q
  | _ => True

variable {w : Workspace} {k : RequestKind}

/-! In the library. -/

theorem within_list {path : Text} (h : w.Confined k path) :
    (Probe.list path).Within (w.MayAsk k) fun _ => True := within_question h

theorem within_present {path : Text} (h : w.Confined k path) :
    (Probe.present path).Within (w.MayAsk k) fun _ => True := within_question h

theorem within_isFolder {path : Text} (h : w.Confined k path) :
    (Probe.isFolder path).Within (w.MayAsk k) fun _ => True :=
  within_bind (within_list h) fun _ _ => within_pure trivial

theorem within_moduleFile? {folder name : Text} {extensions : List Text}
    (h : ∀ e ∈ extensions, w.Confined k (Path.append folder (name ++ e))) :
    (Library.moduleFile? folder name extensions).Within (w.MayAsk k)
      fun found => ∀ item ∈ found, w.Confined k item.path := by
  induction extensions with
  | nil => exact within_pure (by simp)
  | cons e extensions ih =>
    obtain ⟨he, hrest⟩ := List.forall_mem_cons.mp h
    refine within_bind (within_present he) fun present _ => ?_
    split
    · refine within_bind (within_isFolder he) fun folder _ => ?_
      split
      · exact ih hrest
      · refine within_pure fun item hitem => ?_
        obtain rfl := Option.mem_some.mp hitem
        exact he
    · exact ih hrest

theorem within_item? {parts : List Text} (h : k.Names parts) :
    (w.library.item? parts).Within (w.MayAsk k) fun found => ∀ item ∈ found, w.Confined k item.path := by
  obtain ⟨init, last, rfl, -⟩ := id h
  rw [Library.item?, List.getLast?_concat, List.dropLast_concat]
  refine within_bind (within_isFolder .root) fun root _ => ?_
  split
  · refine within_bind (within_isFolder (.package h)) fun package _ => ?_
    split
    · refine within_pure fun item hitem => ?_
      obtain rfl := Option.mem_some.mp hitem
      exact .package h
    · refine within_moduleFile? fun e he => ?_
      have hmodule := Confined.moduleFile h he
      rw [Path.join, List.foldl_append] at hmodule
      exact hmodule
  · exact within_pure (by simp)

theorem within_targetFrom? {parts : List Text} (h : k.Names parts) (j : Nat) :
    (w.library.targetFrom? parts j).Within (w.MayAsk k) fun found => ∀ t ∈ found, w.Confined k t.path := by
  induction j with
  | zero => exact within_pure (by simp)
  | succ j ih =>
    refine within_bind (within_item? (h.take j)) fun item hitem => ?_
    split
    · exact ih
    · exact within_pure (by simp)
    · refine within_pure fun t ht => ?_
      obtain rfl := Option.mem_some.mp ht
      exact hitem _ rfl

def NamesIn (k : RequestKind) (dotted : Text) : Prop := splitDotted dotted ≠ [] → k.Names (splitDotted dotted)

theorem within_target? {dotted : Text} (h : NamesIn k dotted) :
    (w.library.target? dotted).Within (w.MayAsk k) fun found => ∀ t ∈ found, w.Confined k t.path := by
  unfold Library.target?
  by_cases hnil : splitDotted dotted = []
  · rw [hnil]
    exact within_pure (by simp)
  · exact within_targetFrom? (h hnil) _

theorem within_children {folder : Text} (h : w.Confined k folder) :
    (w.library.children folder).Within (w.MayAsk k) fun _ => True := by
  refine within_bind (within_list h) fun entries _ => ?_
  split <;> exact within_pure trivial

theorem within_importNames : w.library.importNames.Within (w.MayAsk k) fun _ => True :=
  within_bind (within_children .root) fun _ _ => within_pure trivial

theorem within_tableFile? (hk : k = .definition) {table : Text} (h : isIdentifier table = true) :
    (tableFile? w.tablesRoot table).Within (w.MayAsk k) fun _ => True :=
  within_bind (within_present (.table hk h)) fun _ _ => within_pure trivial

/-! In an inquiry. -/

theorem within_probe {α : Type} {post : α → Prop} {p : Probe α} (h : p.Within (w.MayAsk k) post) :
    (Inquiry.probe p).Within (w.MayInquire k) post := by
  refine within_refine (fun q hq => ?_) h
  have hfile : w.MayInquire k (.file q) := hq
  exact within_question hfile

theorem within_checkpoint : Inquiry.checkpoint.Within (w.MayInquire k) fun _ => True :=
  within_question trivial

theorem within_imports : Inquiry.imports.Within (w.MayInquire k) fun _ => True := within_question trivial

theorem within_outline {path : Text} (h : w.Confined k path) :
    (Inquiry.outline path).Within (w.MayInquire k) fun _ => True := within_question h

theorem within_libraryTarget? {dotted : Text} (h : NamesIn k dotted) :
    (w.libraryTarget? dotted).Within (w.MayInquire k) fun found => ∀ t ∈ found, w.Confined k t.path := by
  unfold libraryTarget?
  split
  · exact within_pure (by simp)
  · refine within_bind within_checkpoint fun _ _ => within_bind within_imports fun names _ => ?_
    split
    · exact within_bind within_checkpoint fun _ _ => within_probe (within_target? h)
    · exact within_pure (by simp)

theorem within_targetSymbol? {t : Target} (h : w.Confined k t.path) :
    (targetSymbol? t).Within (w.MayInquire k) fun _ => True := by
  unfold targetSymbol?
  split
  · exact within_pure trivial
  · exact within_bind (within_outline h) fun _ _ => within_pure trivial
  · exact within_bind (within_outline h) fun _ _ => within_pure trivial

theorem within_methodItems {chain : Text} (h : NamesIn k chain) :
    (w.methodItems chain).Within (w.MayInquire k) fun _ => True := by
  refine within_bind (within_probe (within_target? h)) fun target htarget => ?_
  split
  · exact within_bind (within_outline (htarget _ rfl)) fun _ _ => within_pure trivial
  · exact within_pure trivial

theorem within_libraryItems {chain : Text} (h : NamesIn k chain) :
    (w.libraryItems chain).Within (w.MayInquire k) fun _ => True := by
  unfold libraryItems
  split
  · exact within_pure trivial
  · rename_i first rest hparts
    have hnames : k.Names (first :: rest) := hparts ▸ h (by simp [hparts])
    refine within_bind within_imports fun names _ => ?_
    split
    · refine within_bind within_checkpoint fun _ _ =>
        within_bind (within_probe (within_item? hnames)) fun item hitem => ?_
      split
      · exact within_bind within_checkpoint fun _ _ =>
          within_bind (within_probe (within_children (hitem _ rfl))) fun _ _ => within_pure trivial
      · exact within_bind (within_outline (hitem _ rfl)) fun _ _ => within_pure trivial
      · exact within_methodItems h
    · exact within_pure trivial

theorem within_targetLocation {t : Target} (h : w.Confined k t.path) :
    (targetLocation t).Within (w.MayInquire k) fun _ => True := by
  unfold targetLocation
  split
  · exact within_pure trivial
  · refine within_bind within_checkpoint fun _ _ =>
      within_bind (within_probe (within_question h)) fun text _ => ?_
    split
    · exact within_pure trivial
    · dsimp only
      split
      · refine within_pure_bind _ fun found => ?_
        split <;> exact within_pure trivial
      · refine within_pure_bind _ fun found => ?_
        split <;> exact within_pure trivial
      · refine within_bind (within_outline h) fun o _ => ?_
        split
        · refine within_pure_bind _ fun found => ?_
          split <;> exact within_pure trivial
        · refine within_pure_bind _ fun found => ?_
          split <;> exact within_pure trivial

/-! The names that the four kinds of requests take from a document. -/

theorem namesIn_of_isExpressionChar {t : Text} (h : ∀ c ∈ t, Cursor.isExpressionChar c = true) :
    NamesIn k t :=
  fun hne => RequestKind.names_of_isWord hne fun _ hs => Cursor.isWord_of_mem_splitDotted h hs

theorem namesIn_of_isChain {t : Text} (h : isChain t = true) : NamesIn k t :=
  namesIn_of_isExpressionChar (Cursor.isExpressionChar_of_isChain h)

theorem namesIn_of_completionChain? {before chain : Text} (h : completionChain? before = some chain) :
    NamesIn .complete chain := by
  unfold completionChain? at h
  split at h
  · rename_i t ht
    obtain rfl := Option.some.inj h
    obtain ⟨init, last, hparts, hinit, hlast⟩ :=
      Cursor.exists_splitDotted_brackets (Cursor.isChain_of_tableChainBeforeDot? ht)
    exact fun _ => ⟨init, _, hparts, hinit, Or.inr ⟨rfl, last, hlast, rfl⟩⟩
  · exact namesIn_of_isChain (Cursor.isChain_of_chainBeforeDot? h)

theorem within_complete (d : Document) (p : CursorPosition) :
    (w.complete d p).Within (w.MayInquire .complete) fun _ => True := by
  unfold complete
  split
  · exact within_bind within_imports fun _ _ => within_pure trivial
  · rename_i chain hchain
    split
    · exact within_pure trivial
    · exact within_libraryItems (namesIn_of_completionChain? hchain)

theorem within_expressionLocation (d : Document) (p : CursorPosition) :
    (w.expressionLocation d p).Within (w.MayInquire k) fun _ => True := by
  unfold expressionLocation
  split
  · exact within_pure trivial
  · rename_i e he
    have hnames : NamesIn k e :=
      namesIn_of_isExpressionChar (Cursor.isExpressionChar_of_expressionAt? he)
    refine within_bind (within_libraryTarget? hnames) fun target htarget => ?_
    split
    · exact within_bind (within_targetLocation (htarget _ rfl)) fun _ _ => within_pure trivial
    · exact within_pure trivial

theorem within_definition (d : Document) (p : CursorPosition) :
    (w.definition d p).Within (w.MayInquire .definition) fun _ => True := by
  unfold definition
  split
  · exact within_expressionLocation d p
  · rename_i table htable
    have hidentifier := Cursor.isIdentifier_of_tableAt? htable
    refine within_bind within_checkpoint fun _ _ =>
      within_bind (within_probe (within_tableFile? rfl hidentifier)) fun path _ => ?_
    split
    · exact within_pure trivial
    · exact within_expressionLocation d p

theorem within_signature? {dotted : Text} (h : NamesIn k dotted) (forCall : Bool) :
    (w.signature? dotted forCall).Within (w.MayInquire k) fun _ => True := by
  unfold signature?
  split
  · exact within_pure trivial
  · split
    · exact within_pure trivial
    · refine within_bind (within_libraryTarget? h) fun target htarget => ?_
      split
      · exact within_pure trivial
      · refine within_bind (within_targetSymbol? (htarget _ rfl)) fun symbol _ => ?_
        split <;> exact within_pure trivial

theorem within_hover (d : Document) (p : CursorPosition) :
    (w.hover d p).Within (w.MayInquire k) fun _ => True := by
  unfold hover
  split
  · exact within_pure trivial
  · rename_i e he
    have hnames : NamesIn k e :=
      namesIn_of_isExpressionChar (Cursor.isExpressionChar_of_expressionAt? he)
    exact within_bind (within_signature? hnames false) fun _ _ => within_pure trivial

theorem within_signatureHelp (d : Document) (p : CursorPosition) :
    (w.signatureHelp d p).Within (w.MayInquire k) fun _ => True := by
  unfold signatureHelp
  split
  · exact within_pure trivial
  · rename_i call hcall
    have hnames : NamesIn k call.callee := namesIn_of_isChain (Cursor.isChain_of_enclosingCall? hcall)
    exact within_bind (within_signature? hnames true) fun _ _ => within_pure trivial

/-- Whatever a document says, an inquiry asks only about confined paths. -/
theorem within_inquire (d : Document) (p : CursorPosition) (k : RequestKind) :
    (w.inquire d p k).Within (w.MayInquire k) fun _ => True := by
  cases k with
  | complete => exact within_bind (within_complete d p) fun _ _ => within_pure trivial
  | definition => exact within_bind (within_definition d p) fun _ _ => within_pure trivial
  | hover => exact within_bind (within_hover d p) fun _ _ => within_pure trivial
  | signatureHelp => exact within_bind (within_signatureHelp d p) fun _ _ => within_pure trivial

end Workspace

/-! In a running session. -/

/-- What a running request has asked since `before` is confined. -/
structure Running.Confined (w : Workspace) (k : RequestKind) (before : List FileQuestion) (r : Running) :
    Prop where
  workspace_eq : r.session.workspace = w
  exists_asked : ∃ asked, r.turn.asked = before ++ asked ∧ ∀ q ∈ asked, w.MayAsk k q

namespace Act

variable {α β : Type} {I : Running → Prop}

/-- Also where the action is interrupted, it keeps the invariant. -/
def Maintains (I : Running → Prop) (act : Act α) : Prop := ∀ r, I r → I (act.run.run r).2

theorem maintains_pure (a : α) : Maintains I (pure a) := fun _ hr => hr

theorem maintains_throw (e : Interruption) : Maintains I (throw e : Act α) := fun _ hr => hr

theorem maintains_bind {act : Act α} {f : α → Act β} (hact : Maintains I act)
    (hf : ∀ a, Maintains I (f a)) : Maintains I (act >>= f) := by
  intro r hr
  have hafter := hact r hr
  rw [run_bind]
  cases hrun : act.run.run r with
  | mk result r' =>
    rw [hrun] at hafter
    cases result with
    | ok a => exact hf a r' hafter
    | error e => exact hafter

theorem maintains_get_bind {f : Running → Act α} (hf : ∀ r, I r → Maintains I (f r)) :
    Maintains I (get >>= f) := by
  intro r hr
  rw [run_bind, run_get]
  exact hf r hr r hr

theorem maintains_session_bind {f : Session → Act α} (hf : ∀ r, I r → Maintains I (f r.session)) :
    Maintains I (session >>= f) := by
  intro r hr
  rw [run_bind, run_session]
  exact hf r hr r hr

theorem maintains_tryCatch {act : Act α} {handler : Interruption → Act α} (hact : Maintains I act)
    (hhandler : ∀ e, Maintains I (handler e)) : Maintains I (tryCatch act handler) := by
  intro r hr
  have hafter := hact r hr
  rw [run_tryCatch]
  cases hrun : act.run.run r with
  | mk result r' =>
    rw [hrun] at hafter
    cases result with
    | ok a => exact hafter
    | error e => exact hhandler e r' hafter

theorem maintains_run {Q : Type} {A : Q → Type} {answer : (q : Q) → Act (A q)} {p : Q → Prop}
    {post : α → Prop} (hanswer : ∀ q, p q → Maintains I (answer q)) {d : Dialogue Q A α}
    (hd : d.Within p post) : Maintains I (d.run answer) := by
  induction d with
  | done a => exact maintains_pure a
  | ask q next ih => exact maintains_bind (hanswer q hd.1) fun a => ih a (hd.2 a)

theorem maintains_run_of_answers {Q : Type} {A : Q → Type} {answer : (q : Q) → Act (A q)}
    (hanswer : ∀ q, Maintains I (answer q)) (d : Dialogue Q A α) : Maintains I (d.run answer) := by
  induction d with
  | done a => exact maintains_pure a
  | ask q next ih => exact maintains_bind (hanswer q) ih

variable {w : Workspace} {k : RequestKind} {before : List FileQuestion}

theorem maintains_modifySession {f : Session → Session}
    (hf : ∀ s : Session, s.workspace = w → (f s).workspace = w) :
    Maintains (Running.Confined w k before) (modifySession f) :=
  fun r hr => ⟨hf r.session hr.workspace_eq, hr.exists_asked⟩

theorem maintains_modifyTurn {f : Turn → Turn} (hf : ∀ t : Turn, (f t).asked = t.asked) :
    Maintains (Running.Confined w k before) (modifyTurn f) := by
  intro r hr
  refine ⟨hr.workspace_eq, ?_⟩
  change ∃ asked, (f r.turn).asked = before ++ asked ∧ _
  rw [hf]
  exact hr.exists_asked

theorem maintains_checkpoint : Maintains (Running.Confined w k before) checkpoint := by
  refine maintains_get_bind fun r _ => maintains_bind (maintains_modifyTurn fun _ => rfl) fun _ => ?_
  split
  · exact maintains_throw _
  · exact maintains_pure _

theorem maintains_libraryChanged (path : Option Text) :
    Maintains (Running.Confined w k before) (libraryChanged path) := by
  refine maintains_session_bind fun r hr => ?_
  have hworkspace : (r.session.libraryChanged path).1.workspace = w := by
    rw [← hr.workspace_eq, Session.libraryChanged]
    dsimp only
    split
    · rfl
    · split <;> rfl
  refine maintains_bind (maintains_modifySession fun _ _ => hworkspace) fun _ => ?_
  split
  · exact maintains_throw _
  · exact maintains_pure _

theorem maintains_perform (deed : Deed) : Maintains (Running.Confined w k before) (perform deed) := by
  cases deed with
  | cancel => exact maintains_modifyTurn fun _ => rfl
  | updateDocument uri version =>
    refine maintains_modifySession fun s hs => ?_
    obtain ⟨versions, hversions⟩ := s.exists_versions_updateDocument uri version
    rw [hversions]
    exact hs
  | changeLibrary path => exact maintains_libraryChanged path
  | failDisk message => exact maintains_throw _

theorem maintains_meetIncident (action : FileAction) :
    Maintains (Running.Confined w k before) (meetIncident action) := by
  refine maintains_get_bind fun r _ => ?_
  dsimp only
  split
  · exact maintains_pure _
  · split
    · exact maintains_perform _
    · exact maintains_pure _

theorem maintains_askDisk {q : FileQuestion} (hq : w.MayAsk k q) :
    Maintains (Running.Confined w k before) (askDisk q) := by
  have hasked : Maintains (Running.Confined w k before)
      (modifyTurn fun t => { t with asked := t.asked ++ [q] }) := by
    rintro r ⟨hworkspace, asked, hsplit, hall⟩
    refine ⟨hworkspace, asked ++ [q], ?_, ?_⟩
    · change r.turn.asked ++ [q] = _
      rw [hsplit, List.append_assoc]
    · intro q' hq'
      rcases List.mem_append.mp hq' with hq' | hq'
      · exact hall q' hq'
      · exact List.mem_singleton.mp hq' ▸ hq
  refine maintains_bind hasked fun _ => maintains_session_bind fun r _ => ?_
  split
  · exact maintains_throw _
  · exact maintains_bind (maintains_modifySession fun _ hs => hs) fun _ =>
      maintains_bind (maintains_meetIncident _) fun _ => maintains_pure _

theorem maintains_imports : Maintains (Running.Confined w k before) imports := by
  refine maintains_session_bind fun r hr => ?_
  have hlibrary : r.session.library = w.library := congrArg Workspace.library hr.workspace_eq
  split
  · exact maintains_throw _
  · exact maintains_bind (maintains_modifySession fun _ hs => hs) fun _ => maintains_pure _
  · rw [hlibrary]
    exact maintains_bind (maintains_run (fun _ => maintains_askDisk) Workspace.within_importNames)
      fun _ => maintains_bind (maintains_modifySession fun _ hs => hs) fun _ => maintains_pure _

theorem maintains_outline {path : Text} (h : w.Confined k path) :
    Maintains (Running.Confined w k before) (outline path) := by
  refine maintains_bind maintains_checkpoint fun _ => maintains_session_bind fun r _ => ?_
  split
  · exact maintains_throw _
  · split
    · exact maintains_throw _
    · exact maintains_bind (maintains_modifySession fun _ hs => hs) fun _ => maintains_pure _
    · refine maintains_bind (maintains_askDisk h) fun text => maintains_bind maintains_checkpoint fun _ => ?_
      exact maintains_bind (maintains_modifySession fun _ hs => hs) fun _ => maintains_pure _

theorem maintains_answer {q : ServiceQuestion} (hq : w.MayInquire k q) :
    Maintains (Running.Confined w k before) (answer q) := by
  cases q with
  | checkpoint => exact maintains_checkpoint
  | imports => exact maintains_imports
  | outline path => exact maintains_outline hq
  | file q => exact maintains_askDisk hq

theorem maintains_inquire (d : Document) (p : CursorPosition) :
    Maintains (Running.Confined w k before) (inquire k d p) := by
  refine maintains_bind maintains_checkpoint fun _ => maintains_session_bind fun r hr => ?_
  rw [hr.workspace_eq]
  refine maintains_bind (maintains_run (fun _ => maintains_answer) (Workspace.within_inquire d p k))
    fun result => ?_
  split
  · exact maintains_pure _
  · exact maintains_throw _

theorem maintains_request (d : Document) (p : CursorPosition) :
    Maintains (Running.Confined w k before) (request k d p) := by
  rw [request_eq]
  refine maintains_bind (maintains_tryCatch (maintains_inquire d p) fun e => ?_) fun result => ?_
  · cases e with
    | cancelled => exact maintains_pure _
    | failed f => exact maintains_throw _
  · split
    · exact maintains_session_bind fun r _ => maintains_pure _
    · exact maintains_pure _

end Act

/-- Whatever a document says and whatever happens meanwhile, a request asks only about the root of the
library, what proper names lead to from there, and the schema files of tables. -/
theorem Session.asked_by_request_confined (s : Session) (t : Turn) (k : RequestKind) (d : Document)
    (p : CursorPosition) :
    (∃ asked, ((Act.request k d p).run.run ⟨s, t⟩).2.turn.asked = t.asked ++ asked ∧
      ∀ q ∈ asked, s.workspace.Confined k q.path) ∧
    ∀ parts, k.Names parts → ∀ name ∈ parts, Path.IsProper name := by
  have hstart : Running.Confined s.workspace k t.asked ⟨s, t⟩ :=
    ⟨rfl, [], (List.append_nil _).symm, by simp⟩
  exact ⟨(Act.maintains_request d p _ hstart).exists_asked, fun _ h => h.isProper⟩

theorem Session.asked_by_request_confined_subscript :
    let s : Session := {
      configuration := { workspace := "/w", file := "/w/.apy_intel.yml" }
      schema := {}
      disk := { top := .folder [("w", .folder [("src", .folder [("libs", .folder
        [("a", .folder [])])])])] } }
    let d : Document := ⟨"/w/d.py", "a.b[\"x\"].", 0⟩
    let asked := ((Act.request .complete d ⟨0, 9⟩).run.run ⟨s, {}⟩).2.turn.asked
    asked.map FileQuestion.path =
      (["/w/src/libs", "/w/src/libs", "/w/src/libs/a/b[]", "/w/src/libs/a/b[].py",
        "/w/src/libs/a/b[].apy", "/w/src/libs", "/w/src/libs/a/b[]", "/w/src/libs/a/b[].py",
        "/w/src/libs/a/b[].apy", "/w/src/libs", "/w/src/libs/a"] : List Text) ∧
    ∀ q ∈ asked, s.workspace.Confined .complete q.path := by
  intro s d asked
  obtain ⟨⟨new, hasked, hconfined⟩, -⟩ := asked_by_request_confined s {} .complete d ⟨0, 9⟩
  refine ⟨by decide +kernel, fun q hq => hconfined q ?_⟩
  exact (show asked = new from hasked) ▸ hq

end EditorInsight
