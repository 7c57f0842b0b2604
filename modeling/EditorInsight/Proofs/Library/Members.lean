import EditorInsight.Proofs.Library.Descent
import EditorInsight.Proofs.Source.CursorWords

/-!
# One part more

What a dotted name leads to decides what it leads to with one part more, if it is no package: nothing stands
below a name that is not a folder, so the module stays the same and the part selects something in it.
-/

namespace EditorInsight

open Text

theorem Text.IsWord.isAbsolute_append {name : Text} (h : IsWord name) (e : Text) :
    Path.isAbsolute (name ++ e) = false := by
  have hslash : '/' ∉ name := h.not_mem (by decide)
  cases name with
  | nil => exact absurd rfl h.ne_nil
  | cons c name =>
    have hc : c ≠ '/' := fun hc => hslash (hc ▸ List.mem_cons_self)
    simpa [Path.isAbsolute] using hc

namespace Disk

variable (d : Disk)

theorem exists_arrive_of_isFile {path : Text} (h : d.fileSystem.isFile path = true) :
    Path.hasNull path = false ∧ ∃ place bytes, d.arrive path = .found place (.file bytes) := by
  obtain ⟨hpresent, hnot⟩ := FileSystem.isFile_iff.mp h
  obtain ⟨hnull, place, n, harrive⟩ := isPresent_iff.mp hpresent
  cases n with
  | file bytes => exact ⟨hnull, place, bytes, harrive⟩
  | folder cs =>
    have hfolder := isFolder_iff.mpr ⟨hnull, place, cs, harrive⟩
    exact absurd hfolder (Bool.eq_false_iff.mp hnot)

theorem resolve?_of_not_isFolder (extensions : List Text) {folder name : Text} (hne : folder ≠ [])
    (hname : IsWord name) (h : d.isFolder folder = false) :
    d.fileSystem.resolve? extensions folder name = none := by
  have habsent (e : Text) : d.isPresent (Path.append folder (name ++ e)) = false := by
    by_contra hpresent
    have hfolder := d.isFolder_of_isPresent_append hne (hname.isAbsolute_append e)
      (Bool.not_eq_false _ ▸ hpresent)
    rw [h] at hfolder
    cases hfolder
  have hname := habsent []
  rw [List.append_nil] at hname
  exact d.fileSystem.resolve?_eq_none extensions hname fun e _ => habsent e

end Disk

namespace Library

variable {d : Disk} {lib : Library}

theorem probe_item?_of_not_isFolder (hnull : Path.hasNull lib.root = false)
    (h : d.isFolder lib.root = false) (parts : List Text) : d.probe (lib.item? parts) = .ok none := by
  have hprobe : d.probe (Probe.isFolder lib.root) = .ok false := (d.fileSystem.run_isFolder hnull).trans
    (congrArg Except.ok h)
  rw [item?, Disk.probe_bind, hprobe]
  rfl

theorem probe_item?_concat {parts : List Text} {label : Text} {item : Option LibraryItem} (hne : parts ≠ [])
    (hparts : ∀ part ∈ parts, IsWord part) (hlabel : IsWord label)
    (h : d.probe (lib.item? parts) = .ok item) (hitem : ∀ path, item ≠ some (.package path)) :
    d.probe (lib.item? (parts ++ [label])) = .ok none := by
  have hnullOf {w : Text} (hw : IsWord w) : '\x00' ∉ w := hw.not_mem (by decide)
  have hnull : Path.hasNull lib.root = false := by
    cases hnull : Path.hasNull lib.root with
    | false => rfl
    | true =>
      rw [item?, Disk.probe_bind, Probe.isFolder, Disk.probe_bind, Disk.probe_list, Disk.list, hnull] at h
      cases h
  cases hroot : d.isFolder lib.root with
  | false => exact probe_item?_of_not_isFolder hnull hroot _
  | true =>
    obtain ⟨init, name, rfl⟩ := (List.eq_nil_or_concat parts).resolve_left hne
    rw [List.concat_eq_append] at hparts h ⊢
    obtain ⟨hinit, hname⟩ := List.forall_mem_append.mp hparts
    have hname := hname name (List.mem_singleton_self name)
    have hfs : d.fileSystem.isFolder lib.root = true := hroot
    have hjoin := Path.join_concat lib.root init name
    have hresolve : d.probe (lib.item? (init ++ [name])) = _ := run_item?_concat hfs init name
      (fun part hpart => hnullOf (hinit part hpart)) (hnullOf hname)
    have hbelow : d.probe (lib.item? (init ++ [name] ++ [label])) = _ := run_item?_concat hfs (init ++ [name])
      label (fun part hpart => hnullOf (hparts part hpart)) (hnullOf hlabel)
    have hfolder : d.isFolder (Path.join lib.root (init ++ [name])) = false := by
      rw [hjoin]
      by_contra hfolder
      rw [Bool.not_eq_false] at hfolder
      have hpackage : d.fileSystem.isFolder (Path.append (Path.join lib.root init) name) = true := hfolder
      rw [h, FileSystem.resolve?, if_pos hpackage] at hresolve
      exact hitem _ (Except.ok.inj hresolve)
    have hjoined : Path.join lib.root (init ++ [name]) ≠ [] := by
      rw [hjoin]
      exact Path.append_ne_nil hname.ne_nil _
    rw [hbelow, d.resolve?_of_not_isFolder lib.extensions hjoined hlabel hfolder]

theorem isFile_of_item? {parts : List Text} {path extension : Text}
    (h : d.probe (lib.item? parts) = .ok (some (.moduleFile path extension))) :
    d.fileSystem.isFile path = true := by
  rw [item?, Disk.probe_bind] at h
  obtain ⟨root, -, h⟩ := exists_of_bind_eq_ok h
  split at h
  · split at h
    · cases h
    · rename_i name _
      rw [Disk.probe_bind] at h
      obtain ⟨package, -, h⟩ := exists_of_bind_eq_ok h
      split at h
      · cases h
      · have hrun : (moduleFile? (Path.join lib.root parts.dropLast) name lib.extensions).run
            d.fileSystem.answer = _ := run_moduleFile? _ _ _
        obtain ⟨e, hfound, hitem⟩ := Option.map_eq_some_iff.mp (Except.ok.inj (hrun.symm.trans h))
        obtain ⟨rfl, -⟩ := LibraryItem.moduleFile.inj hitem
        have hfile := List.find?_some hfound
        exact hfile
  · cases h

theorem isFile_of_targetFrom? {parts : List Text} {k : Nat} {t : Target}
    (h : d.probe (lib.targetFrom? parts k) = .ok (some t)) : d.fileSystem.isFile t.path = true := by
  induction k with
  | zero => cases h
  | succ k ih =>
    rw [targetFrom?, Disk.probe_bind] at h
    obtain ⟨item, hitem, h⟩ := exists_of_bind_eq_ok h
    rcases item with - | ⟨package⟩ | ⟨file, e⟩
    · exact ih h
    · cases h
    · cases h
      exact isFile_of_item? hitem

theorem probe_targetFrom?_of_item? {parts : List Text} {path extension : Text}
    (h : d.probe (lib.item? parts) = .ok (some (.moduleFile path extension))) (hne : parts ≠ []) :
    d.probe (lib.targetFrom? parts parts.length) = .ok (some ⟨path, .whole⟩) := by
  obtain ⟨part, rest, rfl⟩ := List.exists_cons_of_ne_nil hne
  have hwhole : (part :: rest).take (rest.length + 1) = part :: rest := List.take_of_length_le (by simp)
  have hnone : (part :: rest).drop (rest.length + 1) = [] := List.drop_of_length_le (by simp)
  rw [List.length_cons, targetFrom?, Disk.probe_bind, hwhole, h, hnone]
  rfl

theorem probe_targetFrom?_concat {parts : List Text} {path : Text} {selection : Selection} {k : Nat}
    (hk : k ≤ parts.length) (h : d.probe (lib.targetFrom? parts k) = .ok (some ⟨path, selection⟩))
    (label : Text) : ∃ rest, selection = .ofParts rest ∧
      d.probe (lib.targetFrom? (parts ++ [label]) k) = .ok (some ⟨path, .ofParts (rest ++ [label])⟩) := by
  induction k with
  | zero => cases h
  | succ k ih =>
    rw [targetFrom?, Disk.probe_bind] at h
    rw [targetFrom?, Disk.probe_bind, List.take_append_of_le_length hk, List.drop_append_of_le_length hk]
    obtain ⟨item, hitem, h⟩ := exists_of_bind_eq_ok h
    rw [hitem]
    rcases item with - | ⟨package⟩ | ⟨file, e⟩
    · exact ih (Nat.le_of_succ_le hk) h
    · cases h
    · cases h
      exact ⟨_, rfl, rfl⟩

theorem probe_target?_concat {parts : List Text} {path label : Text} {selection : Selection}
    {item : Option LibraryItem} (hparts : ∀ part ∈ parts, IsWord part) (hlabel : IsWord label)
    (hitem : d.probe (lib.item? parts) = .ok item) (hnot : ∀ path, item ≠ some (.package path))
    (h : d.probe (lib.targetFrom? parts parts.length) = .ok (some ⟨path, selection⟩)) :
    ∃ rest, selection = .ofParts rest ∧
      d.probe (lib.targetFrom? (parts ++ [label]) (parts.length + 1)) =
        .ok (some ⟨path, .ofParts (rest ++ [label])⟩) := by
  have hne : parts ≠ [] := by
    rintro rfl
    cases h
  obtain ⟨rest, hrest, htarget⟩ := probe_targetFrom?_concat (Nat.le_refl _) h label
  refine ⟨rest, hrest, ?_⟩
  have hwhole : (parts ++ [label]).take (parts.length + 1) = parts ++ [label] :=
    List.take_of_length_le (by simp)
  rw [targetFrom?, Disk.probe_bind, hwhole, probe_item?_concat hne hparts hlabel hitem hnot]
  exact htarget

end Library
end EditorInsight
