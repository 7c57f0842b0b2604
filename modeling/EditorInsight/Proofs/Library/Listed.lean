import EditorInsight.Proofs.Library.Entries

/-!
# What is listed and what resolves

Listing takes an extension off the name of a file, in whatever case it is written; resolving puts an extension
behind a name as it stands. So a listed package resolves, and a listed module does if one of the files that it
is listed for has its extension in lower case.
-/

namespace EditorInsight

open Text

theorem Text.isProper_append_of_isName {name e : Text} (h : isName name = true) (hslash : '/' ∉ e)
    (hnull : '\x00' ∉ e) : Path.IsProper (name ++ e) := by
  unfold isName at h
  split at h
  · rename_i word hword
    obtain ⟨rfl, hident, -⟩ := identifier?_eq_some hword
    rw [List.append_nil]
    exact (isWord_of_isIdentifier hident).isProper_append hslash hnull
  · rename_i word hword
    obtain ⟨rfl, hident, -⟩ := identifier?_eq_some hword
    rw [List.append_assoc]
    exact (isWord_of_isIdentifier hident).isProper_append (by simp [hslash]) (by simp [hnull])
  · cases h

theorem Text.isProper_of_isName {name : Text} (h : isName name = true) : Path.IsProper name := by
  simpa using isProper_append_of_isName (e := []) h (by simp) (by simp)

/-- Extensions that can be told at the end of a name: in lower-case ASCII, and none at the end of another. -/
structure ClearExtensions (extensions : List Text) : Prop where
  ne_nil : ∀ e ∈ extensions, e ≠ []
  ascii : ∀ e ∈ extensions, ∀ c ∈ e, c.toNat < 128
  lower_eq : ∀ e ∈ extensions, lower e = e
  eq_of_suffix : ∀ e ∈ extensions, ∀ e' ∈ extensions, e' <:+ e → e' = e
  slash_not_mem : ∀ e ∈ extensions, '/' ∉ e
  null_not_mem : ∀ e ∈ extensions, '\x00' ∉ e

theorem clearExtensions_default : ClearExtensions [".py", ".apy"] where
  ne_nil := by decide
  ascii := by simp
  lower_eq := by decide
  eq_of_suffix := by decide
  slash_not_mem := by decide
  null_not_mem := by decide

namespace Library

variable {lib : Library}

theorem moduleName?_append (hclear : ClearExtensions lib.extensions) {e : Text} (he : e ∈ lib.extensions)
    (name : Text) : lib.moduleName? (name ++ e) = some name := by
  have hsuffix : e <:+ lower (name ++ e) := suffix_lower (hclear.lower_eq e he) (List.suffix_append name e)
  unfold moduleName?
  cases hfind : lib.extensions.find? fun x => x.isSuffixOf (lower (name ++ e)) with
  | none =>
    have hnot := List.find?_eq_none.mp hfind e he
    exact absurd (List.isSuffixOf_iff_suffix.mpr hsuffix) hnot
  | some x =>
    have hmem := List.mem_of_find?_eq_some hfind
    have hends := List.find?_some hfind
    have hx : x <:+ lower (name ++ e) := List.isSuffixOf_iff_suffix.mp hends
    obtain rfl : x = e := by
      rcases List.suffix_or_suffix_of_suffix hx hsuffix with h | h
      · exact hclear.eq_of_suffix e he x hmem h
      · exact (hclear.eq_of_suffix x hmem e he h).symm
    simp [hclear.ne_nil x hmem]

/-- What is taken off a name is an extension, but for its case. -/
theorem exists_of_moduleName? (hclear : ClearExtensions lib.extensions) {file name : Text}
    (h : lib.moduleName? file = some name) : ∃ x, file = name ++ x ∧ lower x ∈ lib.extensions := by
  unfold moduleName? at h
  cases hfind : lib.extensions.find? fun x => x.isSuffixOf (lower file) with
  | none =>
    rw [hfind] at h
    cases h
  | some e =>
    rw [hfind] at h
    have hmem := List.mem_of_find?_eq_some hfind
    have hends := List.find?_some hfind
    have hsuffix : e <:+ lower file := List.isSuffixOf_iff_suffix.mp hends
    obtain ⟨x, ⟨y, rfl⟩, hlength, hlower⟩ := exists_suffix_of_suffix_lowerFrom (hclear.ascii e hmem) hsuffix
    have hname : y = name := by simpa [hclear.ne_nil e hmem, ← hlength] using h
    exact ⟨x, by rw [hname], by rw [hlower]; exact hmem⟩

theorem child?_eq_some {entry : DirEntry} {c : LibraryChild} (h : lib.child? entry = some c) :
    isName c.name = true ∧ ((c.kind = .package ∧ entry = ⟨c.name, true⟩) ∨
      (c.kind = .moduleFile ∧ entry.isFolder = false ∧ lib.moduleName? entry.name = some c.name)) := by
  unfold child? at h
  split at h
  · cases h
  · split at h
    · rename_i hfolder
      split at h
      · rename_i hname
        obtain rfl := Option.some.inj h
        exact ⟨hname, Or.inl ⟨rfl, by rw [← hfolder]⟩⟩
      · cases h
    · rename_i hfile
      cases hmodule : lib.moduleName? entry.name with
      | none =>
        rw [hmodule] at h
        cases h
      | some name =>
        rw [hmodule] at h
        dsimp only at h
        split at h
        · rename_i hname
          rw [Bool.and_eq_true] at hname
          obtain rfl := Option.some.inj h
          exact ⟨hname.1, Or.inr ⟨rfl, by simpa using hfile, rfl⟩⟩
        · cases h

variable {fs : FileSystem}

theorem run_children {folder : Text} {entries : List DirEntry} (h : fs.Lists folder entries) :
    (lib.children folder).run fs.answer =
      .ok (sortOn LibraryChild.name (entries.filterMap lib.child?)) := by
  rw [children, Dialogue.run_bind, Probe.list, Dialogue.run_question, h.answer_eq]
  rfl

theorem eq_join_of_item? {parts : List Text} {folder : Text}
    (h : (lib.item? parts).run fs.answer = .ok (some (.package folder))) : folder = Path.join lib.root parts := by
  rw [item?, Dialogue.run_bind] at h
  obtain ⟨root, -, h⟩ := exists_of_bind_eq_ok h
  split at h
  · cases hlast : parts.getLast? with
    | none =>
      obtain rfl := List.getLast?_eq_none_iff.mp hlast
      cases h
      rfl
    | some name =>
      rw [hlast] at h
      dsimp only at h
      rw [Dialogue.run_bind] at h
      obtain ⟨package, -, h⟩ := exists_of_bind_eq_ok h
      split at h
      · cases h
        rfl
      · rw [run_moduleFile?] at h
        obtain ⟨e, -, hitem⟩ := Option.map_eq_some_iff.mp (Except.ok.inj h)
        cases hitem
  · cases h

end Library

namespace FileSystem

variable {fs : FileSystem} {folder : Text} {entries : List DirEntry} {extensions : List Text}

/-- A name that a folder is listed under stands for that folder. -/
theorem Lists.resolve?_of_folder (h : fs.Lists folder entries) {name : Text} (hmem : ⟨name, true⟩ ∈ entries) :
    fs.resolve? extensions folder name = some (.package (Path.append folder name)) := by
  have hfolder := (h.isFolder_iff ((h.mem_iff _).mp hmem).1).mpr hmem
  rw [resolve?, if_pos hfolder]

/-- Any other name stands for the first file that is listed under it with an extension. -/
theorem Lists.resolve?_of_not_folder (h : fs.Lists folder entries) (hclear : ClearExtensions extensions)
    {name : Text} (hname : isName name = true) (hmem : ⟨name, true⟩ ∉ entries) :
    (∃ e ∈ extensions, ⟨name ++ e, false⟩ ∈ entries ∧
      fs.resolve? extensions folder name = some (.moduleFile (Path.append folder (name ++ e)) e)) ∨
    ((∀ e ∈ extensions, ⟨name ++ e, false⟩ ∉ entries) ∧ fs.resolve? extensions folder name = none) := by
  have hfile {e : Text} (he : e ∈ extensions) :
      fs.isFile (Path.append folder (name ++ e)) = true ↔ ⟨name ++ e, false⟩ ∈ entries :=
    h.isFile_iff (isProper_append_of_isName hname (hclear.slash_not_mem e he) (hclear.null_not_mem e he))
  rw [resolve?, if_neg (mt (h.isFolder_iff (isProper_of_isName hname)).mp hmem)]
  cases hfind : extensions.find? fun e => fs.isFile (Path.append folder (name ++ e)) with
  | none =>
    right
    refine ⟨fun e he hlisted => ?_, rfl⟩
    exact List.find?_eq_none.mp hfind e he ((hfile he).mpr hlisted)
  | some e =>
    left
    have he := List.mem_of_find?_eq_some hfind
    have hfound := List.find?_some hfind
    exact ⟨e, he, (hfile he).mp hfound, rfl⟩

end FileSystem

namespace Library

/-- What is listed in a package resolves below it, but for modules that are listed only for files whose
extensions have capitals. -/
theorem item?_of_listed (fs : FileSystem) (lib : Library)
    (hextensions : lib.extensions = ([".py", ".apy"] : List Text)) (hroot : fs.isFolder lib.root = true)
    (parts : List Text) (folder : Text) (entries : List DirEntry)
    (hpackage : (lib.item? parts).run fs.answer = .ok (some (.package folder)))
    (hlists : fs.Lists folder entries) :
    ∃ children, (lib.children folder).run fs.answer = .ok children ∧ ∀ c ∈ children,
      (c.kind = .package → (lib.item? (parts ++ [c.name])).run fs.answer =
        .ok (some (.package (Path.append folder c.name)))) ∧
      (c.kind = .moduleFile →
        (∃ x, ⟨c.name ++ x, false⟩ ∈ entries ∧ lower x ∈ lib.extensions) ∧
        (⟨c.name, true⟩ ∈ entries → (lib.item? (parts ++ [c.name])).run fs.answer =
          .ok (some (.package (Path.append folder c.name)))) ∧
        (⟨c.name, true⟩ ∉ entries →
          (∃ e ∈ lib.extensions, ⟨c.name ++ e, false⟩ ∈ entries ∧
            (lib.item? (parts ++ [c.name])).run fs.answer =
              .ok (some (.moduleFile (Path.append folder (c.name ++ e)) e))) ∨
          ((∀ e ∈ lib.extensions, ⟨c.name ++ e, false⟩ ∉ entries) ∧
            (lib.item? (parts ++ [c.name])).run fs.answer = .ok none))) := by
  have hclear : ClearExtensions lib.extensions := hextensions ▸ clearExtensions_default
  refine ⟨_, run_children hlists, fun c hc => ?_⟩
  rw [sortOn, List.mem_mergeSort, List.mem_filterMap] at hc
  obtain ⟨entry, hentry, hchild⟩ := hc
  obtain ⟨hname, hkind⟩ := child?_eq_some hchild
  have hitem : (lib.item? (parts ++ [c.name])).run fs.answer =
      .ok (fs.resolve? lib.extensions folder c.name) := by
    obtain ⟨hproper, hpresent, -⟩ := (hlists.mem_iff entry).mp hentry
    have hnull : Path.hasNull folder = false :=
      Path.hasNull_of_append (Path.isAbsolute_of_not_mem hproper.slash_not_mem)
        (fs.hasNull_of_isPresent _ hpresent)
    rw [eq_join_of_item? hpackage] at hnull ⊢
    exact run_item?_of_path hroot parts c.name
      (Path.hasNull_append hnull (isProper_of_isName hname).null_not_mem)
  simp only [hitem, Except.ok.injEq]
  rcases hkind with ⟨hkind, rfl⟩ | ⟨hkind, hfile, hmodule⟩
  · refine ⟨fun _ => hlists.resolve?_of_folder hentry, fun hmodule => ?_⟩
    rw [hkind] at hmodule
    cases hmodule
  · refine ⟨fun hfolder => ?_, fun _ => ⟨?_, fun hmem => hlists.resolve?_of_folder hmem,
      fun hmem => hlists.resolve?_of_not_folder hclear hname hmem⟩⟩
    · rw [hkind] at hfolder
      cases hfolder
    · obtain ⟨x, hx, hlower⟩ := exists_of_moduleName? hclear hmodule
      refine ⟨x, ?_, hlower⟩
      rw [← hx, ← hfile]
      exact hentry

theorem item?_of_listed_package :
    let inside : List (Text × FileNode) :=
      [("UPPER.PY", .file []), ("sub", .folder []), ("sub.apy", .file []), ("tools.py", .file [])]
    let d : Disk := { top := .folder [("libs", .folder [("pkg", .folder inside)])] }
    let lib : Library := { root := "/libs" }
    let entries := inside.map fun c => (⟨c.1, c.2.isFolder⟩ : DirEntry)
    d.fileSystem.isFolder lib.root = true ∧
    (lib.item? ["pkg"]).run d.fileSystem.answer = .ok (some (.package "/libs/pkg")) ∧
    d.fileSystem.Lists "/libs/pkg" entries ∧
    (lib.children "/libs/pkg").run d.fileSystem.answer = .ok [⟨"UPPER", .moduleFile⟩, ⟨"sub", .package⟩,
      ⟨"sub", .moduleFile⟩, ⟨"tools", .moduleFile⟩] ∧
    (lib.item? ["pkg", "sub"]).run d.fileSystem.answer = .ok (some (.package "/libs/pkg/sub")) ∧
    (lib.item? ["pkg", "tools"]).run d.fileSystem.answer =
      .ok (some (.moduleFile "/libs/pkg/tools.py" ".py")) := by
  intro inside d lib entries
  have hroot : d.fileSystem.isFolder lib.root = true := by decide +kernel
  have hpackage : (lib.item? ["pkg"]).run d.fileSystem.answer = .ok (some (.package "/libs/pkg")) := by
    decide +kernel
  have harrive : d.arrive "/libs/pkg" = .found ["libs", "pkg"] (.folder inside) := rfl
  have hlists : d.fileSystem.Lists "/libs/pkg" entries := by
    have hlists := Disk.lists (by decide) harrive (by decide) (by decide) (by decide +kernel)
    rwa [sortOn, List.mergeSort_of_pairwise (by decide)] at hlists
  have hchildren : (lib.children "/libs/pkg").run d.fileSystem.answer = .ok [⟨"UPPER", .moduleFile⟩,
      ⟨"sub", .package⟩, ⟨"sub", .moduleFile⟩, ⟨"tools", .moduleFile⟩] := by
    rw [run_children hlists, sortOn, List.mergeSort_of_pairwise (by decide +kernel)]
    decide +kernel
  obtain ⟨children, hrun, hlisted⟩ :=
    item?_of_listed d.fileSystem lib rfl hroot ["pkg"] "/libs/pkg" entries hpackage hlists
  obtain rfl := Except.ok.inj (hchildren.symm.trans hrun)
  refine ⟨hroot, hpackage, hlists, hchildren, (hlisted ⟨"sub", .package⟩ (by decide)).1 rfl, ?_⟩
  rcases ((hlisted ⟨"tools", .moduleFile⟩ (by decide)).2 rfl).2.2 (by decide) with ⟨e, he, hmem, hitem⟩ | ⟨hnone, -⟩
  · rcases List.mem_cons.mp he with rfl | he
    · exact hitem
    · obtain rfl := List.mem_singleton.mp he
      exact absurd hmem (by decide)
  · exact absurd (by decide) (hnone ".py" (by decide))

/-- A module that is listed for a file in capitals alone does not resolve. -/
theorem item?_of_listed_capitals :
    let d : Disk := { top := .folder [("libs", .folder [("UPPER.PY", .file [])])] }
    let lib : Library := { root := "/libs" }
    (lib.item? []).run d.fileSystem.answer = .ok (some (.package "/libs")) ∧
    (lib.children "/libs").run d.fileSystem.answer = .ok [⟨"UPPER", .moduleFile⟩] ∧
    (lib.item? ["UPPER"]).run d.fileSystem.answer = .ok none := by
  decide +kernel

end Library
end EditorInsight
