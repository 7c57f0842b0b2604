import EditorInsight.Proofs.Library.Listed
import EditorInsight.Proofs.Library.Members
import EditorInsight.Proofs.Service.Recall

/-!
# The import gate

A dotted name is looked up in the library only if its first part is among the names that can be imported. This
hides nothing public: where such a name leads into a module, its first part is a folder or a module file at the
top of the library, and passes every filter of the listing.
-/

namespace EditorInsight

open Text

namespace Library

variable {d : Disk} {lib : Library} {first : Text}

theorem child?_folder (hfirst : isIdentifier first = true) (hpublic : isPrivate first = false) :
    lib.child? ⟨first, true⟩ = some ⟨first, .package⟩ := by
  simp [child?, hpublic, isName_of_isIdentifier hfirst]

theorem child?_file (hclear : ClearExtensions lib.extensions) (hfirst : isIdentifier first = true)
    (hpublic : isPrivate first = false) {e : Text} (he : e ∈ lib.extensions) :
    lib.child? ⟨first ++ e, false⟩ = some ⟨first, .moduleFile⟩ := by
  have hfile : isPrivate (first ++ e) = false := by
    cases first with
    | nil => cases hfirst
    | cons c first => exact hpublic
  simp [child?, hfile, moduleName?_append hclear he, isName_of_isIdentifier hfirst, hpublic]

theorem elem_importNames {name : Text} {c : LibraryChild} {names : List Text}
    (hroot : d.isFolder lib.root = true) (hname : Path.IsProper name)
    (hpresent : d.isPresent (Path.append lib.root name) = true)
    (hchild : lib.child? ⟨name, d.isFolder (Path.append lib.root name)⟩ = some c)
    (hnames : d.probe lib.importNames = .ok names) : names.elem c.name = true := by
  obtain ⟨hnull, place, cs, harrive⟩ := Disk.isFolder_iff.mp hroot
  rw [importNames, Disk.probe_bind, children, Disk.probe_bind, Disk.probe_list,
    Disk.list_of_arrive hnull harrive] at hnames
  obtain rfl := Except.ok.inj hnames
  refine List.elem_eq_true_of_mem (List.mem_map.mpr ⟨c, ?_, rfl⟩)
  rw [sortOn, List.mem_mergeSort]
  refine List.mem_filterMap.mpr ⟨_, ?_, hchild⟩
  rw [sortOn, List.mem_mergeSort]
  exact Disk.mem_entries_of_isPresent harrive hname hpresent

/-- A descent that arrives has begun with a folder or with a module file. -/
theorem elem_importNames_of_descend (hclear : ClearExtensions lib.extensions)
    (hroot : d.isFolder lib.root = true) (hfirst : isIdentifier first = true) (hpublic : isPrivate first = false)
    {rest : List Text} {t : Target}
    (h : d.fileSystem.descend lib.extensions lib.root (first :: rest) = some t) {names : List Text}
    (hnames : d.probe lib.importNames = .ok names) : names.elem first = true := by
  have hname := isName_of_isIdentifier hfirst
  rw [FileSystem.descend] at h
  split at h
  · rename_i hfolder
    have hfolder : d.isFolder (Path.append lib.root first) = true := hfolder
    refine elem_importNames hroot (isProper_of_isName hname) (d.isPresent_of_isFolder _ hfolder)
      (c := ⟨first, .package⟩) ?_ hnames
    rw [hfolder]
    exact child?_folder hfirst hpublic
  · obtain ⟨path, hpath, -⟩ := Option.map_eq_some_iff.mp h
    obtain ⟨e, he, rfl⟩ := List.mem_map.mp (List.mem_of_find?_eq_some hpath)
    have hfound := List.find?_some hpath
    obtain ⟨hpresent, hnot⟩ := FileSystem.isFile_iff.mp hfound
    have hkind : d.isFolder (Path.append lib.root (first ++ e)) = false := hnot
    have hproper := isProper_append_of_isName hname (hclear.slash_not_mem e he) (hclear.null_not_mem e he)
    refine elem_importNames hroot hproper hpresent (c := ⟨first, .moduleFile⟩) ?_ hnames
    rw [hkind]
    exact child?_file hclear hfirst hpublic he

theorem exists_importNames (hnull : Path.hasNull lib.root = false) :
    ∃ names, d.probe lib.importNames = .ok names := by
  rw [importNames, Disk.probe_bind, children, Disk.probe_bind, Disk.probe_list, Disk.list, hnull]
  cases d.arrive lib.root with
  | found place n => cases n <;> exact ⟨_, rfl⟩
  | absent => exact ⟨_, rfl⟩
  | belowFile => exact ⟨_, rfl⟩
  | tooLong => exact ⟨_, rfl⟩

theorem probe_targetFrom?_of_not_isFolder (hnull : Path.hasNull lib.root = false)
    (hroot : d.isFolder lib.root = false) (parts : List Text) (k : Nat) :
    d.probe (lib.targetFrom? parts k) = .ok none := by
  induction k with
  | zero => rfl
  | succ k ih =>
    rw [targetFrom?, Disk.probe_bind, probe_item?_of_not_isFolder hnull hroot]
    exact ih

/-- Asking for the names first changes nothing. -/
theorem probe_importNames_bind (hclear : ClearExtensions lib.extensions) {dotted : Text} {rest : List Text}
    (hsplit : splitDotted dotted = first :: rest) (hfirst : isIdentifier first = true)
    (hpublic : isPrivate first = false) (hparts : ∀ p ∈ splitDotted dotted, '/' ∉ p ∧ '\x00' ∉ p) :
    (d.probe lib.importNames >>= fun names =>
      if names.elem first then d.probe (lib.target? dotted) else .ok none) = d.probe (lib.target? dotted) := by
  cases hnull : Path.hasNull lib.root with
  | true =>
    -- Both ask for the root first, and no disk can be asked for it.
    have hnames : d.probe lib.importNames = .error .embeddedNull := by
      rw [importNames, Disk.probe_bind, children, Disk.probe_bind, Disk.probe_list, Disk.list, hnull]
      rfl
    rw [hnames, target?, hsplit, List.length_cons, targetFrom?, Disk.probe_bind, item?, Disk.probe_bind,
      Probe.isFolder, Disk.probe_bind, Disk.probe_list, Disk.list, hnull]
    rfl
  | false =>
    obtain ⟨names, hnames⟩ := exists_importNames (d := d) hnull
    rw [hnames]
    change (if names.elem first = true then _ else _) = _
    split
    · rfl
    · rename_i hnot
      cases hroot : d.isFolder lib.root with
      | false => exact (probe_targetFrom?_of_not_isFolder hnull hroot _ _).symm
      | true =>
        have hplain : ∀ p ∈ splitDotted dotted, Path.IsPlain p :=
          fun p hp => ⟨by simpa using (List.mem_filter.mp hp).2, (hparts p hp).1⟩
        have hfolder : d.fileSystem.isFolder lib.root = true := hroot
        have hdescend : d.probe (lib.target? dotted) = _ := run_targetFrom?_eq_descend hfolder
          hclear.slash_not_mem hplain fun p hp => (hparts p hp).2
        rw [hdescend, hsplit]
        cases htarget : d.fileSystem.descend lib.extensions lib.root (first :: rest) with
        | none => rfl
        | some t => exact absurd (elem_importNames_of_descend hclear hroot hfirst hpublic htarget hnames) hnot

end Library

namespace Session

/-- While the cached names are those of the library, a public name is looked up as if there were no gate. -/
theorem gated_target_eq (s : Session) (hextensions : s.library.extensions = ([".py", ".apy"] : List Text))
    (hs : s.TruthfulImports) (dotted first : Text) (hhead : (splitDotted dotted).head? = some first)
    (hfirst : isIdentifier first = true) (hpublic : Library.isPrivate first = false)
    (hparts : ∀ p ∈ splitDotted dotted, '/' ∉ p ∧ '\x00' ∉ p) :
    (((s.workspace.libraryTarget? dotted).run Act.answer).runIn s).2 =
      (((s.library.target? dotted).run Act.askDisk).runIn s).2 := by
  have hclear : ClearExtensions s.library.extensions := hextensions ▸ clearExtensions_default
  obtain ⟨rest, hsplit⟩ := List.head?_eq_some_iff.mp hhead
  have horderly : Inquiry.Orderly (fun _ _ => True) .start (s.workspace.libraryTarget? dotted) :=
    Workspace.orderly_libraryTarget? trivial fun _ => trivial
  have hgated : Act.Recalls s .start .outlined _ _ := Act.recalls_run horderly
  have hungated : Act.Recalls s .start .start _ _ := Act.recalls_probe (s.library.target? dotted)
  have hgate := congrArg (Except.mapError ServiceFault.path)
    (Library.probe_importNames_bind (d := s.disk) hclear hsplit hfirst hpublic hparts)
  rw [mapError_bind] at hgate
  rw [hgated.runIn_eq, hungated.runIn_eq, run_libraryTarget?_cachedAnswer hsplit, hs.cachedAnswer_eq]
  refine congrArg _ (Eq.trans ?_ hgate)
  congr 1
  funext names
  split <;> rfl

theorem gated_target_eq_package :
    let s : Session := {
      configuration := { workspace := "/w", file := "/w/.apy_intel.yml" }
      schema := { roots := [], classes := [] }
      disk := {
        top := .folder [("w", .folder [("src", .folder [("libs", .folder
          [("pkg", .folder [("m.apy", .file [])])])])])] }
      imports := { slot := some ⟨"/w", ["pkg"], .whole 0⟩ } }
    s.TruthfulImports ∧
    (((s.workspace.libraryTarget? "pkg.m.f").run Act.answer).runIn s).2 =
      .ok (some ⟨"/w/src/libs/pkg/m.apy", .member "f"⟩) := by
  intro s
  have hs : s.TruthfulImports := by
    rintro e ⟨⟩ -
    exact ⟨⟨_, rfl⟩, by decide +kernel⟩
  have htarget : s.disk.probe (s.library.target? "pkg.m.f") =
      .ok (some ⟨"/w/src/libs/pkg/m.apy", .member "f"⟩) := by
    decide +kernel
  have hungated : Act.Recalls s .start .start _ _ := Act.recalls_probe (s.library.target? "pkg.m.f")
  refine ⟨hs, ?_⟩
  rw [gated_target_eq s rfl hs "pkg.m.f" "pkg" (by decide) (by decide) (by decide) (by decide), hungated.runIn_eq,
    htarget]
  rfl

end Session
end EditorInsight
