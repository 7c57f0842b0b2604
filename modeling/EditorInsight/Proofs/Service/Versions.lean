import EditorInsight.Proofs.Service.Recall
import EditorInsight.Proofs.Service.Refinement
import EditorInsight.Server.Tool

/-!
# Versions of documents

The recorded version of a document is the latest one that was given for it since it was last closed, by an
update or by the call of a tool. A call with an earlier version computes its result and then says nothing;
any other call returns what it computes, and so does every call without a version. Only results are
discarded: a computation that fails makes the call fail, whatever its version.
-/

namespace EditorInsight

/-- What a client does about documents. Meanwhile files are written and time passes. -/
inductive DocumentStep where
  | update (uri : Text) (version : Int)
  | close (uri : Text)
  | call (k : RequestKind) (a : Tool.Arguments)
  | elapse (disk : Disk) (clock : Quantity)

namespace DocumentStep

/-- The versions given for a document since it was last closed, the latest step first; `before` are those
given in earlier steps. -/
def given (uri : Text) (before : List Int) : DocumentStep → List Int
  | update u version => if u = uri then version :: before else before
  | close u => if u = uri then [] else before
  | call _ a => if a.file = uri then a.version.toList ++ before else before
  | elapse _ _ => before

end DocumentStep

def versionsGiven (uri : Text) (steps : List DocumentStep) : List Int :=
  steps.foldl (DocumentStep.given uri) []

namespace Session

def afterStep (s : Session) : DocumentStep → Session
  | .update uri version => s.updateDocument uri version
  | .close uri => s.closeDocument uri
  | .call k a => ((Tool.run k a).runIn s).1
  | .elapse disk clock => { s with disk := disk, clock := clock }

def afterSteps (s : Session) (steps : List DocumentStep) : Session := steps.foldl afterStep s

/-- The text of the document that a call is about, unless it cannot be read. -/
def documentText? (s : Session) (a : Tool.Arguments) : Option Text := a.text.or (s.disk.read a.file).1

def document (s : Session) (a : Tool.Arguments) (text : Text) : Document :=
  ⟨a.file, text, a.version.getD ((s.versions.get? a.file).getD 0)⟩

def noteVersion (s : Session) (a : Tool.Arguments) : Session :=
  match a.version with
  | some version => s.updateDocument a.file version
  | none => s

variable {s : Session} {a : Tool.Arguments}

theorem noteVersion_of_some {version : Int} (h : a.version = some version) :
    s.noteVersion a = s.updateDocument a.file version := by
  rw [noteVersion, h]

theorem noteVersion_of_none (h : a.version = none) : s.noteVersion a = s := by
  rw [noteVersion, h]

/-! Recorded versions. -/

theorem versions_updateDocument (s : Session) (u uri : Text) (version : Int) :
    (s.updateDocument u version).versions.get? uri =
      if uri = u then some ((s.versions.get? u).elim version (max version)) else s.versions.get? uri := by
  unfold updateDocument
  split
  · rename_i known hknown
    rw [hknown]
    split
    · rename_i hle
      rw [OrderedMap.get?_put, Option.elim_some, max_eq_left hle]
    · rename_i hlt
      split
      · rename_i huri
        rw [huri, hknown, Option.elim_some, max_eq_right (by omega)]
      · rfl
  · rename_i hnone
    rw [hnone, OrderedMap.get?_put]
    rfl

theorem versions_noteVersion (s : Session) (a : Tool.Arguments) {before : List Int}
    (h : s.versions.get? a.file = before.max?) :
    (s.noteVersion a).versions.get? a.file = (a.version.toList ++ before).max? := by
  cases hversion : a.version with
  | none => rw [noteVersion_of_none hversion, h, Option.toList_none, List.nil_append]
  | some version =>
    rw [noteVersion_of_some hversion, versions_updateDocument, if_pos rfl, h, Option.toList_some,
      List.singleton_append, List.max?_cons]

theorem versions_noteVersion_of_ne (s : Session) {uri : Text} (h : a.file ≠ uri) :
    (s.noteVersion a).versions.get? uri = s.versions.get? uri := by
  cases hversion : a.version with
  | none => rw [noteVersion_of_none hversion]
  | some version => rw [noteVersion_of_some hversion, versions_updateDocument, if_neg (Ne.symm h)]

end Session

namespace Tool

def respond (k : RequestKind) (a : Arguments) : Act k.Result := do
  match ← Act.readDocument a.file a.text a.version with
  | none => Act.fail (.unreadable a.file)
  | some d => Act.request k d a.position

theorem runIn_run (k : RequestKind) (a : Arguments) (s : Session) :
    (run k a).runIn s = (respond k a).runIn (s.noteVersion a) := by
  obtain ⟨file, position, text, version⟩ := a
  cases version <;> rfl

end Tool

namespace Act

theorem quiet_readDocument (path : Text) (text : Option Text) (version : Option Int) :
    Quiet Session.versions (readDocument path text version) := by
  have hsome (t : Text) : Quiet Session.versions (readDocument path (some t) version) := by
    intro s turn _
    exact ⟨.ok (some ⟨path, t, version.getD ((s.versions.get? path).getD 0)⟩), s, turn.asked, rfl, fun _ => rfl⟩
  cases text with
  | some t => exact hsome t
  | none =>
    refine quiet_bind (quiet_askDisk (fun _ _ => rfl) _) fun text => ?_
    cases text with
    | some t => exact hsome t
    | none => exact quiet_pure _

theorem maintains_answer_versions (versions : OrderedMap Text Int) (q : ServiceQuestion) :
    Maintains (Shows Session.versions versions) (answer q) := by
  cases q with
  | checkpoint => exact maintains_checkpoint_shows _ versions
  | imports => exact maintains_of_quiet (quiet_imports (fun _ _ => rfl) fun _ _ => rfl) versions
  | outline path => exact maintains_outline_shows (fun _ _ => rfl) (fun _ _ => rfl) versions path
  | file q => exact maintains_of_quiet (quiet_askDisk (fun _ _ => rfl) q) versions

theorem maintains_request_versions (versions : OrderedMap Text Int) (k : RequestKind) (d : Document)
    (p : CursorPosition) : Maintains (Shows Session.versions versions) (request k d p) := by
  intro r hr
  rw [run_request, conclude_snd]
  refine maintains_bind (maintains_checkpoint_shows _ versions) (fun _ => maintains_session_bind fun r _ => ?_) r hr
  refine maintains_bind (maintains_run_of_answers (maintains_answer_versions versions) _) fun answered => ?_
  cases answered with
  | ok result => exact maintains_pure _
  | error f => exact maintains_throw _

theorem maintains_respond_versions (versions : OrderedMap Text Int) (k : RequestKind) (a : Tool.Arguments) :
    Maintains (Shows Session.versions versions) (Tool.respond k a) := by
  refine maintains_bind (maintains_of_quiet (quiet_readDocument _ _ _) versions) fun d => ?_
  cases d with
  | none => exact maintains_throw _
  | some d => exact maintains_request_versions versions k d a.position

end Act

namespace Session

variable {s : Session} {a : Tool.Arguments}

theorem versions_call (s : Session) (k : RequestKind) (a : Tool.Arguments) :
    ((Tool.run k a).runIn s).1.versions = (s.noteVersion a).versions := by
  rw [Tool.runIn_run]
  exact (Act.maintains_respond_versions _ k a ⟨s.noteVersion a, {}⟩ ⟨rfl, rfl⟩).2

theorem versions_afterStep {uri : Text} {before : List Int} (h : s.versions.get? uri = before.max?)
    (x : DocumentStep) : (s.afterStep x).versions.get? uri = (x.given uri before).max? := by
  cases x with
  | update u version =>
    rw [afterStep, versions_updateDocument, DocumentStep.given]
    by_cases hu : u = uri
    · rw [if_pos hu.symm, if_pos hu, hu, h, List.max?_cons]
    · rw [if_neg (Ne.symm hu), if_neg hu, h]
  | close u =>
    rw [afterStep, closeDocument, OrderedMap.get?_erase, DocumentStep.given]
    by_cases hu : u = uri
    · rw [if_pos hu.symm, if_pos hu]
      rfl
    · rw [if_neg (Ne.symm hu), if_neg hu, h]
  | call k a =>
    rw [afterStep, versions_call, DocumentStep.given]
    by_cases ha : a.file = uri
    · rw [if_pos ha, ← ha]
      exact s.versions_noteVersion a (ha ▸ h)
    · rw [if_neg ha, versions_noteVersion_of_ne s ha, h]
  | elapse disk clock => exact h

theorem versions_afterSteps_from {uri : Text} {before : List Int} (h : s.versions.get? uri = before.max?)
    (steps : List DocumentStep) :
    (s.afterSteps steps).versions.get? uri = (steps.foldl (DocumentStep.given uri) before).max? := by
  induction steps generalizing s before with
  | nil => exact h
  | cons x steps ih => exact ih (versions_afterStep h x)

/-- The recorded version is the greatest one given since the document was last closed. -/
theorem versions_afterSteps (hs : s.versions = {}) (steps : List DocumentStep) (uri : Text) :
    (s.afterSteps steps).versions.get? uri = (versionsGiven uri steps).max? := by
  apply versions_afterSteps_from
  rw [hs]
  rfl

/-! What a call returns. -/

theorem cachedResult_noteVersion (s : Session) (a : Tool.Arguments) (k : RequestKind) (d : Document)
    (p : CursorPosition) : (s.noteVersion a).cachedResult k d p = s.cachedResult k d p := by
  have hanswers (versions : OrderedMap Text Int) :
      ({ s with versions := versions } : Session).cachedAnswer = s.cachedAnswer := by
    funext q
    cases q <;> rfl
  cases hversion : a.version with
  | none => rw [noteVersion_of_none hversion]
  | some version =>
    obtain ⟨versions, hversions⟩ := s.exists_versions_updateDocument a.file version
    rw [noteVersion_of_some hversion, hversions, cachedResult, hanswers]
    rfl

theorem documentText?_noteVersion (s : Session) (a : Tool.Arguments) :
    (s.noteVersion a).documentText? a = s.documentText? a := by
  cases hversion : a.version with
  | none => rw [noteVersion_of_none hversion]
  | some version =>
    obtain ⟨versions, hversions⟩ := s.exists_versions_updateDocument a.file version
    rw [noteVersion_of_some hversion, hversions]
    rfl

theorem document_noteVersion (s : Session) (a : Tool.Arguments) (text : Text) :
    (s.noteVersion a).document a text = s.document a text := by
  cases hversion : a.version with
  | none => rw [noteVersion_of_none hversion]
  | some version => rw [document, document, hversion, Option.getD_some, Option.getD_some]

theorem isCurrent_document_of_none (h : a.version = none) (s : Session) (text : Text) :
    s.isCurrent a.file (s.document a text).version = true := by
  rw [isCurrent, document, h]
  cases s.versions.get? a.file with
  | none => rfl
  | some known => exact decide_eq_true rfl

theorem isCurrent_noteVersion {version : Int} {before : List Int} (h : a.version = some version)
    (hbefore : s.versions.get? a.file = before.max?) :
    (s.noteVersion a).isCurrent a.file version = decide (∀ w ∈ before, w ≤ version) := by
  rw [isCurrent, s.versions_noteVersion a hbefore, h, Option.toList_some, List.singleton_append]
  have hmax : (version :: before).max? = some version ↔ ∀ w ∈ before, w ≤ version := by
    rw [List.max?_eq_some_iff]
    simp
  cases hknown : (version :: before).max? with
  | none => simp at hknown
  | some known =>
    rw [hknown, Option.some.injEq] at hmax
    exact decide_eq_decide.mpr hmax

end Session

namespace Act

variable {s : Session} {stage : Stage}

theorem recalls_readDocument {path text : Text} {inline : Option Text}
    (h : inline.or (s.disk.read path).1 = some text) (version : Option Int) :
    Recalls s stage stage (readDocument path inline version)
      (.ok (some ⟨path, text, version.getD ((s.versions.get? path).getD 0)⟩)) := by
  have hsome (t : Text) : Recalls s stage stage (readDocument path (some t) version)
      (.ok (some ⟨path, t, version.getD ((s.versions.get? path).getD 0)⟩)) := by
    intro r hr
    have hversions : r.session.versions = s.versions :=
      Session.eq_of_bare_eq hr.bare_eq Session.versions fun _ => rfl
    rw [← hversions]
    exact ⟨r, rfl, fun _ _ => hr⟩
  cases inline with
  | some t =>
    obtain rfl : t = text := by simpa using h
    exact hsome t
  | none =>
    have hread : s.cachedAnswer (.file (.read path)) = .ok (some text) := by
      rw [s.cachedAnswer_file]
      exact congrArg Except.ok h
    intro r hr
    obtain ⟨r', hrun, hafter⟩ := recalls_askDisk (.read path) r hr
    rw [hread] at hrun
    unfold readDocument
    dsimp only
    rw [run_bind, hrun]
    exact hsome text r' (hafter _ hread)

end Act

namespace Session

variable {s : Session} {a : Tool.Arguments}

theorem runIn_respond {text : Text} (h : s.documentText? a = some text) (k : RequestKind) :
    ((Tool.respond k a).runIn s).2 = s.cachedOutcome k (s.document a text) a.position := by
  have hread : Act.Recalls s .start .start (Act.readDocument a.file a.text a.version)
      (.ok (some (s.document a text))) := Act.recalls_readDocument h a.version
  obtain ⟨r, hrun, hafter⟩ := hread _ (Act.keeps_start s)
  unfold Tool.respond Act.runIn
  rw [Act.run_bind, hrun]
  exact Act.run_request_fst (hafter _ rfl) k _ a.position

/-- A call computes its result whatever its version, and keeps it if that is current. -/
theorem runIn_call {text : Text} (h : s.documentText? a = some text) (k : RequestKind) :
    ((Tool.run k a).runIn s).2 =
      (if (s.noteVersion a).isCurrent a.file (s.document a text).version then
        s.cachedResult k (s.document a text) a.position
      else (s.cachedResult k (s.document a text) a.position).map fun _ => k.nothing).mapError .failed := by
  rw [Tool.runIn_run, runIn_respond ((s.documentText?_noteVersion a).trans h), document_noteVersion,
    cachedOutcome, cachedResult_noteVersion]
  have hversion : (s.noteVersion a).isCurrent (s.document a text).uri (s.document a text).version =
      (s.noteVersion a).isCurrent a.file (s.document a text).version := rfl
  rw [hversion]
  cases (s.noteVersion a).isCurrent a.file (s.document a text).version <;>
    cases s.cachedResult k (s.document a text) a.position <;> rfl

/-- After any steps the recorded version of a document is the greatest one given since it was last closed.
A call on a document that can be read returns what it computes if it has no version or one that is at least
as great as all those given, and says nothing otherwise; if the computation fails, it fails. -/
theorem call_outcome_of_versionsGiven (s : Session) (hs : s.versions = {}) (steps : List DocumentStep) :
    let s' := s.afterSteps steps
    (∀ uri, s'.versions.get? uri = (versionsGiven uri steps).max?) ∧
    ∀ (k : RequestKind) (a : Tool.Arguments) (text : Text), s'.documentText? a = some text →
      let computed := s'.cachedResult k (s'.document a text) a.position
      (a.version = none → ((Tool.run k a).runIn s').2 = computed.mapError .failed) ∧
      ∀ version, a.version = some version →
        ((Tool.run k a).runIn s').2 =
          (if ∀ w ∈ versionsGiven a.file steps, w ≤ version then computed
            else computed.map fun _ => k.nothing).mapError .failed := by
  intro s'
  have hversions : ∀ uri, s'.versions.get? uri = (versionsGiven uri steps).max? := versions_afterSteps hs steps
  refine ⟨hversions, fun k a text htext => ⟨fun hnone => ?_, fun version hversion => ?_⟩⟩
  · rw [runIn_call htext, noteVersion_of_none hnone, if_pos (isCurrent_document_of_none hnone s' text)]
  · have hdocument : (s'.document a text).version = version := by
      rw [document, hversion, Option.getD_some]
    rw [runIn_call htext, hdocument, isCurrent_noteVersion hversion (hversions a.file)]
    simp only [decide_eq_true_eq]

theorem call_outcome_of_versionsGiven_reopened :
    let call (version : Option Int) : Tool.Arguments := ⟨"/w/d.py", ⟨0, 3⟩, some "m.f", version⟩
    let steps : List DocumentStep :=
      [.update "/w/d.py" 9, .close "/w/d.py", .call .hover (call (some 5)), .update "/w/d.py" 3]
    let s' := oneModule.afterSteps steps
    s'.versions.get? "/w/d.py" = some 5 ∧ s'.outlines.entries ≠ [] ∧
      ((Tool.run .hover (call (some 4))).runIn s').2 = .ok none ∧
      ((Tool.run .hover (call (some 5))).runIn s').2 = .ok (some "def f(a)") ∧
      ((Tool.run .hover (call none)).runIn s').2 = .ok (some "def f(a)") := by
  intro call steps s'
  have hgiven (version : Option Int) : versionsGiven (call version).file steps = [3, 5] := by
    change versionsGiven "/w/d.py" steps = _
    decide +kernel
  have hcomputed (version : Option Int) : (s'.cachedResult .hover (s'.document (call version) "m.f") ⟨0, 3⟩ :
      Except ServiceFault (Option Text)) = .ok (some "def f(a)") := by
    -- The result does not depend on the version of the document.
    change s'.cachedResult .hover ⟨"/w/d.py", "m.f", 0⟩ ⟨0, 3⟩ = _
    decide +kernel
  obtain ⟨hversions, hcalls⟩ := call_outcome_of_versionsGiven oneModule rfl steps
  refine ⟨?_, by decide +kernel, ?_, ?_, ?_⟩
  · exact (hversions "/w/d.py").trans (congrArg List.max? (hgiven none))
  · have hlate : ¬ ∀ w ∈ versionsGiven (call (some 4)).file steps, w ≤ 4 := by
      rw [hgiven]
      decide
    rw [(hcalls .hover (call (some 4)) "m.f" rfl).2 4 rfl, if_neg hlate, hcomputed (some 4)]
    rfl
  · have hcurrent : ∀ w ∈ versionsGiven (call (some 5)).file steps, w ≤ 5 := by
      rw [hgiven]
      decide
    rw [(hcalls .hover (call (some 5)) "m.f" rfl).2 5 rfl, if_pos hcurrent, hcomputed (some 5)]
    rfl
  · rw [(hcalls .hover (call none) "m.f" rfl).1 rfl, hcomputed none]
    rfl

/-- A call with an earlier version fails if its computation does. -/
theorem outdated_call_fails :
    let s : Session := {
      configuration := { workspace := "/w", file := "/w/.apy_intel.yml" }
      schema := {}
      disk := { top := .folder [] } }
    let steps : List DocumentStep := [.update "file://[" 2]
    let a : Tool.Arguments := ⟨"file://[", ⟨1, 0⟩, some "f = 1\nf", some 1⟩
    s.versions = {} ∧ versionsGiven a.file steps = [2] ∧
      (s.afterSteps steps).documentText? a = a.text ∧
      ((Tool.run .definition a).runIn (s.afterSteps steps)).2 =
        .error (.failed (.request (.uri .misplacedBracket))) := by
  intro s steps a
  have htext : (s.afterSteps steps).documentText? a = some ("f = 1\nf" : Text) := rfl
  have hcomputed : ((s.afterSteps steps).cachedResult .definition
      ((s.afterSteps steps).document a "f = 1\nf") a.position : Except ServiceFault (Option Location)) =
        .error (.request (.uri .misplacedBracket)) := by
    decide +kernel
  refine ⟨rfl, by decide +kernel, htext, ?_⟩
  rw [runIn_call htext, hcomputed]
  split <;> rfl

end Session

end EditorInsight
