import EditorInsight.Proofs.Library.Descent
import EditorInsight.Proofs.Source.CursorWords

/-!
# Existence and resolution

A module is said to exist if anything is present at its path or at its path with an extension; it resolves if
there is a folder at the one or a file at one of the others. The two agree but for a file without an extension
and for a folder with one.
-/

namespace EditorInsight

open Text

namespace FileSystem

variable (fs : FileSystem)

theorem isPresent_eq (p : Text) : fs.isPresent p = (fs.isFile p || fs.isFolder p) := by
  unfold isFile
  cases hfolder : fs.isFolder p with
  | false => simp
  | true => simp [fs.isPresent_of_isFolder p hfolder]

theorem any_isPresent_eq (paths : List Text) :
    paths.any fs.isPresent = (paths.any fs.isFile || paths.any fs.isFolder) := by
  induction paths with
  | nil => rfl
  | cons p paths ih =>
    rw [List.any_cons, List.any_cons, List.any_cons, ih, fs.isPresent_eq]
    ac_rfl

end FileSystem

namespace Library

variable {fs : FileSystem} {lib : Library}

/-- The paths at which the parts may be a module file, in the order in which they are tried. -/
def filePaths (lib : Library) (parts : List Text) : List Text :=
  match parts.getLast? with
  | none => []
  | some name => lib.extensions.map fun e => Path.append (Path.join lib.root parts.dropLast) (name ++ e)

theorem filePaths_concat (lib : Library) (parts : List Text) (name : Text) :
    lib.filePaths (parts ++ [name]) =
      lib.extensions.map fun e => Path.append (Path.join lib.root parts) (name ++ e) := by
  rw [filePaths, List.getLast?_concat, List.dropLast_concat]

theorem run_anyPresent (paths : List Text) :
    (anyPresent paths).run fs.answer = .ok (paths.any fs.isPresent) := by
  induction paths with
  | nil => rfl
  | cons p paths ih =>
    rw [anyPresent, Dialogue.run_bind, fs.run_present, List.any_cons]
    cases fs.isPresent p with
    | true => rfl
    | false => exact ih

theorem run_hasParts {parts : List Text} (hne : parts ≠ []) :
    (lib.hasParts parts).run fs.answer =
      .ok ((lib.filePaths parts).any fs.isPresent || fs.isPresent (Path.join lib.root parts)) := by
  unfold hasParts filePaths
  cases hlast : parts.getLast? with
  | none => exact absurd (List.getLast?_eq_none_iff.mp hlast) hne
  | some name =>
    dsimp only
    rw [run_anyPresent, List.any_append]
    simp

theorem run_item?_of_isFolder (hroot : fs.isFolder lib.root = true) {parts : List Text} (hne : parts ≠ [])
    (hnull : ∀ part ∈ parts, '\x00' ∉ part) :
    ∃ item, (lib.item? parts).run fs.answer = .ok item ∧
      item.isSome = (fs.isFolder (Path.join lib.root parts) || (lib.filePaths parts).any fs.isFile) := by
  obtain ⟨init, name, rfl⟩ := (List.eq_nil_or_concat parts).resolve_left hne
  rw [List.concat_eq_append] at hnull ⊢
  obtain ⟨hinit, hname⟩ := List.forall_mem_append.mp hnull
  refine ⟨_, run_item?_concat hroot init name hinit (hname name (List.mem_singleton_self name)), ?_⟩
  rw [filePaths_concat, Path.join_concat, FileSystem.resolve?, List.any_map]
  cases fs.isFolder (Path.append (Path.join lib.root init) name) with
  | true => rfl
  | false =>
    rw [Bool.eq_iff_iff]
    simp

/-- A dotted name is said to exist where it resolves, where a file stands at its path, and where a folder stands
at its path with an extension, and nowhere else. -/
theorem hasModule_eq_isSome_item? (fs : FileSystem) (lib : Library) (hroot : fs.isFolder lib.root = true)
    (dotted : Text) (hne : splitDotted dotted ≠ []) (hnull : '\x00' ∉ dotted) :
    ∃ item, (lib.item? (splitDotted dotted)).run fs.answer = .ok item ∧
      item.isSome = (fs.isFolder (Path.join lib.root (splitDotted dotted)) ||
        (lib.filePaths (splitDotted dotted)).any fs.isFile) ∧
      (lib.hasModule dotted).run fs.answer =
        .ok (item.isSome || fs.isFile (Path.join lib.root (splitDotted dotted)) ||
          (lib.filePaths (splitDotted dotted)).any fs.isFolder) := by
  have hparts : ∀ part ∈ splitDotted dotted, '\x00' ∉ part := by
    intro part hpart hmem
    exact hnull (mem_of_mem_splitWhere (List.mem_filter.mp hpart).1 hmem)
  obtain ⟨item, hitem, hsome⟩ := run_item?_of_isFolder hroot hne hparts
  refine ⟨item, hitem, hsome, ?_⟩
  rw [hasModule, run_hasParts hne, hsome, fs.any_isPresent_eq, fs.isPresent_eq]
  congr 1
  ac_rfl

theorem hasModule_eq_isSome_item?_module :
    let d : Disk := { top := .folder [("libs", .folder [("pkg", .folder [("tools.apy", .file [])])])] }
    let lib : Library := { root := "/libs" }
    d.fileSystem.isFolder lib.root = true ∧
    (lib.hasModule "pkg..tools").run d.fileSystem.answer = .ok true ∧
    (lib.item? (splitDotted "pkg..tools")).run d.fileSystem.answer ≠ .ok none := by
  intro d lib
  have hroot : d.fileSystem.isFolder lib.root = true := by decide +kernel
  obtain ⟨item, hitem, hsome, hmodule⟩ :=
    hasModule_eq_isSome_item? d.fileSystem lib hroot "pkg..tools" (by decide) (by decide)
  have hfile : (lib.filePaths (splitDotted "pkg..tools")).any d.fileSystem.isFile = true := by decide +kernel
  rw [hfile, Bool.or_true] at hsome
  rw [hsome] at hmodule
  refine ⟨hroot, hmodule, fun hnone => ?_⟩
  obtain rfl := Except.ok.inj (hitem.symm.trans hnone)
  cases hsome

/-- A file without an extension, and a folder with one, exist and do not resolve. -/
theorem hasModule_without_item? :
    let d : Disk := { top := .folder [("libs", .folder [("notes", .file []), ("pkg.py", .folder [])])] }
    let lib : Library := { root := "/libs" }
    (lib.hasModule "notes").run d.fileSystem.answer = .ok true ∧
    (lib.item? (splitDotted "notes")).run d.fileSystem.answer = .ok none ∧
    (lib.hasModule "pkg").run d.fileSystem.answer = .ok true ∧
    (lib.item? (splitDotted "pkg")).run d.fileSystem.answer = .ok none := by
  decide +kernel

end Library
end EditorInsight
