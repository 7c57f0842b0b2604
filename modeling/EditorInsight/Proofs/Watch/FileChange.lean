import EditorInsight.Proofs.Files.Tree
import EditorInsight.Proofs.Text.Lowercase
import EditorInsight.Watch.Watcher

/-!
# Changes of files and their events

A file is created, modified, deleted or moved inside folders that are there already. A change touches one
place, or two if it is a move, and leaves every other place as it was. Its event names the touched places
by their absolute paths, and a watcher reports those that have a module extension.
-/

namespace EditorInsight

def HasExtension (extensions : List Text) (place : List Text) : Prop :=
  ∃ name ∈ place.getLast?, ∃ e ∈ extensions, e <:+ Text.lower name

instance (extensions : List Text) (place : List Text) : Decidable (HasExtension extensions place) :=
  inferInstanceAs (Decidable (∃ name ∈ place.getLast?, ∃ e ∈ extensions, e <:+ Text.lower name))

inductive FileChange where
  | create (place : List Text) (bytes : List UInt8)
  | modify (place : List Text) (bytes : List UInt8)
  | delete (place : List Text)
  /-- A file at the destination is replaced. -/
  | move (source destination : List Text)

namespace FileNode

structure IsFilePlace (top : FileNode) (place : List Text) : Prop where
  ne_nil : place ≠ []
  proper : ∀ name ∈ place, Path.IsProper name
  parent : top.look place.dropLast = some none

def HasFile (top : FileNode) (place : List Text) : Prop := ∃ bytes, top.look place = some (some bytes)

instance (top : FileNode) (place : List Text) : Decidable (top.IsFilePlace place) :=
  decidable_of_iff
    (place ≠ [] ∧ (∀ name ∈ place, Path.IsProper name) ∧ top.look place.dropLast = some none)
    ⟨fun h => ⟨h.1, h.2.1, h.2.2⟩, fun h => ⟨h.ne_nil, h.proper, h.parent⟩⟩

instance (top : FileNode) (place : List Text) : Decidable (top.HasFile place) :=
  match h : top.look place with
  | some (some bytes) => isTrue ⟨bytes, h⟩
  | some none => isFalse fun ⟨_, hfile⟩ => nomatch h.symm.trans hfile
  | none => isFalse fun ⟨_, hfile⟩ => nomatch h.symm.trans hfile

end FileNode

namespace FileChange

def touched : FileChange → List (List Text)
  | create place _ => [place]
  | modify place _ => [place]
  | delete place => [place]
  | move source destination => [source, destination]

def apply (top : FileNode) : FileChange → FileNode
  | create place bytes => top.put place (.file bytes)
  | modify place bytes => top.put place (.file bytes)
  | delete place => top.remove place
  | move source destination => match top.at? source with
    | some node => (top.remove source).put destination node
    | none => top

def event : FileChange → FileEvent
  | create place _ => { kind := .created, path := Path.ofPlace place }
  | modify place _ => { kind := .modified, path := Path.ofPlace place }
  | delete place => { kind := .deleted, path := Path.ofPlace place }
  | move source destination =>
    { kind := .moved (Path.ofPlace destination), path := Path.ofPlace source }

/-- What has to stand at the touched places for the change to happen. -/
def Applies (top : FileNode) : FileChange → Prop
  | create place _ => top.look place = none
  | modify place _ => top.HasFile place
  | delete place => top.HasFile place
  | move source destination => top.HasFile source ∧ top.look destination ≠ some none

structure IsPossible (top : FileNode) (c : FileChange) : Prop where
  isFilePlace : ∀ place ∈ c.touched, top.IsFilePlace place
  applies : c.Applies top

/-- The change concerns a module, and no touched module lies below an ignored name. -/
structure IsOfModule (extensions : List Text) (c : FileChange) : Prop where
  exists_module : ∃ place ∈ c.touched, HasExtension extensions place
  not_ignored : ∀ place ∈ c.touched, HasExtension extensions place →
    ∀ name ∈ place, Watcher.isIgnoredName name = false

instance (top : FileNode) : (c : FileChange) → Decidable (c.Applies top)
  | create place _ => inferInstanceAs (Decidable (top.look place = none))
  | modify place _ => inferInstanceAs (Decidable (top.HasFile place))
  | delete place => inferInstanceAs (Decidable (top.HasFile place))
  | move source destination =>
    inferInstanceAs (Decidable (top.HasFile source ∧ top.look destination ≠ some none))

instance (top : FileNode) (c : FileChange) : Decidable (c.IsPossible top) :=
  decidable_of_iff ((∀ place ∈ c.touched, top.IsFilePlace place) ∧ c.Applies top)
    ⟨fun h => ⟨h.1, h.2⟩, fun h => ⟨h.isFilePlace, h.applies⟩⟩

instance (extensions : List Text) (c : FileChange) : Decidable (c.IsOfModule extensions) :=
  decidable_of_iff ((∃ place ∈ c.touched, HasExtension extensions place) ∧
      ∀ place ∈ c.touched, HasExtension extensions place →
        ∀ name ∈ place, Watcher.isIgnoredName name = false)
    ⟨fun h => ⟨h.1, h.2⟩, fun h => ⟨h.exists_module, h.not_ignored⟩⟩

theorem touched_event (c : FileChange) : Watcher.touched c.event = c.touched.map Path.ofPlace := by
  cases c <;> rfl

theorem look_move {top : FileNode} {source destination : List Text}
    (hs : top.IsFilePlace source) (hd : top.IsFilePlace destination) (hsource : top.HasFile source)
    (hdestination : top.look destination ≠ some none) {q : List Text} (hq : q ∉ [source, destination]) :
    (apply top (.move source destination)).look q = top.look q := by
  obtain ⟨bytes, hbytes⟩ := hsource
  have hremove := FileNode.look_remove hs.ne_nil hbytes
  have hat : top.at? source = some (.file bytes) := by
    obtain ⟨n, hn, hcontents⟩ := Option.map_eq_some_iff.mp hbytes
    cases n with
    | file old =>
      obtain rfl : old = bytes := Option.some.inj hcontents
      exact hn
    | folder cs => cases hcontents
  -- The folder above the destination is not the file that is taken away.
  have hparent : (top.remove source).look destination.dropLast = some none := by
    rw [hremove, if_neg, hd.parent]
    intro heq
    have habove := hd.parent
    rw [heq, hbytes] at habove
    cases habove
  have hfile : (top.remove source).look destination ≠ some none := by
    rw [hremove]
    split
    · simp
    · exact hdestination
  rw [apply, hat]
  change ((top.remove source).put destination (.file bytes)).look q = _
  rw [FileNode.look_put hd.ne_nil hparent hfile, hremove]
  simp only [List.mem_cons, List.not_mem_nil, or_false, not_or] at hq
  rw [if_neg hq.2, if_neg hq.1]

theorem look_apply {top : FileNode} {c : FileChange} (hc : c.IsPossible top) {q : List Text}
    (hq : q ∉ c.touched) : (c.apply top).look q = top.look q := by
  have hplaces := hc.isFilePlace
  have happlies := hc.applies
  cases c with
  | create place bytes =>
    have hplace := hplaces place (List.mem_singleton_self place)
    have hnone : top.look place = none := happlies
    rw [apply, FileNode.look_put hplace.ne_nil hplace.parent (by simp [hnone]),
      if_neg (List.mem_singleton.not.mp hq)]
  | modify place bytes =>
    have hplace := hplaces place (List.mem_singleton_self place)
    obtain ⟨old, hold⟩ := happlies
    rw [apply, FileNode.look_put hplace.ne_nil hplace.parent (by simp [hold]),
      if_neg (List.mem_singleton.not.mp hq)]
  | delete place =>
    have hplace := hplaces place (List.mem_singleton_self place)
    obtain ⟨old, hold⟩ := happlies
    rw [apply, FileNode.look_remove hplace.ne_nil hold, if_neg (List.mem_singleton.not.mp hq)]
  | move source destination =>
    exact look_move (hplaces source (by simp [touched])) (hplaces destination (by simp [touched]))
      happlies.1 happlies.2 hq

end FileChange

namespace Watcher

variable {κ : Type}

theorem exists_ofPlace_eq {place : List Text} {name : Text} (h : name ∈ place.getLast?) :
    ∃ x, Path.ofPlace place = x ++ '/' :: name := by
  induction place with
  | nil => cases h
  | cons first rest ih =>
    cases rest with
    | nil =>
      obtain rfl : first = name := Option.some.inj h
      exact ⟨[], rfl⟩
    | cons next rest =>
      obtain ⟨x, hx⟩ := ih h
      refine ⟨'/' :: first ++ x, ?_⟩
      have hjoin : Path.ofPlace (first :: next :: rest) = '/' :: first ++ Path.ofPlace (next :: rest) := by
        simp [Path.ofPlace, Text.join]
      rw [hjoin, hx, List.append_assoc]

theorem isReported_ofPlace (w : Watcher κ) {place : List Text} (hproper : ∀ name ∈ place, Path.IsProper name)
    (hextension : HasExtension w.extensions place)
    (hignored : ∀ name ∈ place, isIgnoredName name = false) : w.isReported (Path.ofPlace place) = true := by
  obtain ⟨name, hname, e, he, hsuffix⟩ := hextension
  have hnot : isIgnored (Path.ofPlace place) = false := by
    rw [isIgnored, Path.components_ofPlace hproper, List.any_eq_false]
    intro name hname
    rw [hignored name hname]
    exact Bool.false_ne_true
  have hmodule : w.isModuleFile (Path.ofPlace place) = true := by
    obtain ⟨x, hx⟩ := exists_ofPlace_eq hname
    rw [isModuleFile, List.any_eq_true]
    refine ⟨e, he, ?_⟩
    rw [hx, List.isSuffixOf_iff_suffix]
    exact hsuffix.trans (Text.lower_suffix_lower_path x name)
  rw [isReported, hnot, hmodule]
  rfl

theorem mem_reports_event (w : Watcher κ) {top : FileNode} {c : FileChange} (hpossible : c.IsPossible top)
    (hmodule : c.IsOfModule w.extensions) {place : List Text} (hplace : place ∈ c.touched)
    (hextension : HasExtension w.extensions place) : Path.ofPlace place ∈ w.reports c.event := by
  rw [reports, FileChange.touched_event, List.mem_filter]
  refine ⟨List.mem_map_of_mem hplace, ?_⟩
  exact w.isReported_ofPlace (hpossible.isFilePlace place hplace).proper hextension
    (hmodule.not_ignored place hplace hextension)

end Watcher
end EditorInsight
