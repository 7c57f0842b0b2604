import EditorInsight.Proofs.Files.Path

/-!
# Laws of file trees

What stands at each place of a tree after a file is written or removed: the place itself changes and no
other one does. A walk that arrives at a file arrives where its path names, and reading a file depends
only on that place.
-/

namespace EditorInsight

namespace FileNode

def contents? : FileNode → Option (List UInt8)
  | .file bytes => some bytes
  | .folder _ => none

/-- What stands at a place: nothing, a folder (`some none`), or a file with its bytes. -/
def look (n : FileNode) (place : List Text) : Option (Option (List UInt8)) :=
  (n.at? place).map contents?

theorem child?_folder_putChild (name q : Text) (node : FileNode) (cs : List (Text × FileNode)) :
    (folder (putChild name node cs)).child? q = if q = name then some node else (folder cs).child? q := by
  simp only [child?, children]
  induction cs with
  | nil =>
    by_cases h : q = name
    · simp [putChild, h]
    · simp [putChild, h, Ne.symm h]
  | cons c cs ih =>
    rw [putChild]
    by_cases hc : c.1 = name
    · by_cases h : q = name
      · simp [hc, h]
      · have h' : ¬ name = q := Ne.symm h
        simp [hc, h, h']
    · by_cases hq : c.1 = q
      · have h : ¬ q = name := fun h => hc (hq.trans h)
        simp [hq, h]
      · simpa [hc, hq] using ih

theorem child?_folder_filter (name q : Text) (cs : List (Text × FileNode)) :
    (folder (cs.filter fun c => c.1 ≠ name)).child? q =
      if q = name then none else (folder cs).child? q := by
  simp only [child?, children, List.find?_filter]
  by_cases h : q = name
  · simp only [h, if_true, Option.map_eq_none_iff, List.find?_eq_none]
    intro c _
    simp
  · simp only [h, if_false]
    congr 2
    funext c
    by_cases hc : c.1 = q
    · simp [hc, h]
    · simp [hc]

theorem look_cons (n : FileNode) (name : Text) (r : List Text) :
    n.look (name :: r) = (n.child? name).bind (·.look r) := by
  rw [look, at?]
  cases n.child? name <;> rfl

theorem look_file_cons (bytes : List UInt8) (name : Text) (r : List Text) :
    (file bytes).look (name :: r) = none := rfl

theorem exists_child_of_look_cons {n : FileNode} {name : Text} {r : List Text}
    {v : Option (List UInt8)} (h : n.look (name :: r) = some v) :
    ∃ cs c, n = folder cs ∧ n.child? name = some c ∧ c.look r = some v := by
  rw [look_cons] at h
  obtain ⟨c, hc, hlook⟩ := Option.bind_eq_some_iff.mp h
  cases n with
  | file bytes => simp [child?, children] at hc
  | folder cs => exact ⟨cs, c, rfl, hc, hlook⟩

theorem exists_folder_of_look_nil {n : FileNode} (h : n.look [] = some none) : ∃ cs, n = folder cs := by
  cases n with
  | file bytes => simp [look, at?, contents?] at h
  | folder cs => exact ⟨cs, rfl⟩

theorem look_put {n : FileNode} {place : List Text} {bytes : List UInt8} (hne : place ≠ [])
    (hparent : n.look place.dropLast = some none) (hfile : n.look place ≠ some none) (q : List Text) :
    (n.put place (.file bytes)).look q = if q = place then some (some bytes) else n.look q := by
  -- At the last name a child is replaced; above it, the child on the way is rebuilt.
  induction place generalizing n q with
  | nil => exact absurd rfl hne
  | cons name rest ih =>
    cases rest with
    | nil =>
      obtain ⟨cs, rfl⟩ := exists_folder_of_look_nil hparent
      cases q with
      | nil => rfl
      | cons d q =>
        rw [put, put, look_cons, look_cons, children, child?_folder_putChild]
        by_cases hd : d = name
        · subst hd
          rw [if_pos rfl, Option.bind_some]
          cases q with
          | nil => rw [if_pos rfl]; rfl
          | cons e q =>
            rw [if_neg (by simp), look_file_cons]
            rw [look_cons] at hfile
            cases hc : (folder cs).child? d with
            | none => rfl
            | some c =>
              cases c with
              | file old => rfl
              | folder _ => exact absurd (by rw [hc]; rfl) hfile
        · rw [if_neg hd, if_neg (by simp [hd])]
    | cons next rest =>
      rw [List.dropLast_cons_cons] at hparent
      obtain ⟨cs, c, rfl, hc, hbelow⟩ := exists_child_of_look_cons hparent
      rw [look_cons, hc, Option.bind_some] at hfile
      cases q with
      | nil => rfl
      | cons d q =>
        rw [put, look_cons, look_cons, children, child?_folder_putChild, hc, Option.getD_some]
        by_cases hd : d = name
        · subst hd
          rw [if_pos rfl, Option.bind_some, ih (by simp) hbelow hfile, hc, Option.bind_some]
          simp
        · rw [if_neg hd, if_neg (by simp [hd])]

theorem look_remove {n : FileNode} {place : List Text} {bytes : List UInt8} (hne : place ≠ [])
    (hfile : n.look place = some (some bytes)) (q : List Text) :
    (n.remove place).look q = if q = place then none else n.look q := by
  induction place generalizing n q with
  | nil => exact absurd rfl hne
  | cons name rest ih =>
    obtain ⟨cs, c, rfl, hc, hbelow⟩ := exists_child_of_look_cons hfile
    cases rest with
    | nil =>
      cases q with
      | nil => rfl
      | cons d q =>
        rw [remove, look_cons, look_cons, children, child?_folder_filter]
        by_cases hd : d = name
        · subst hd
          rw [if_pos rfl, hc, Option.bind_none, Option.bind_some]
          cases q with
          | nil => simp
          | cons e q =>
            cases c with
            | file old => simp [look_file_cons]
            | folder _ => simp [look, at?, contents?] at hbelow
        · rw [if_neg hd, if_neg (by simp [hd])]
    | cons next rest =>
      obtain ⟨cs', c', rfl, -, -⟩ := exists_child_of_look_cons hbelow
      have hremove : (folder cs).remove (name :: next :: rest) =
          folder (putChild name ((folder cs').remove (next :: rest)) cs) := by
        rw [remove, hc]
        · rfl
        · simp
      cases q with
      | nil => rw [hremove]; rfl
      | cons d q =>
        rw [hremove, look_cons, look_cons, child?_folder_putChild]
        by_cases hd : d = name
        · subst hd
          rw [if_pos rfl, Option.bind_some, ih (by simp) hbelow, hc, Option.bind_some]
          simp
        · rw [if_neg hd, if_neg (by simp [hd])]

/-! Walks. -/

/-- One step of a walk that arrives: from a folder, either standing still or following a name that is
not too long. -/
theorem walk_cons_found_iff {top n : FileNode} {piece : Text} {r here place : List Text} :
    top.walk here (piece :: r) = .found place n ↔
      (∃ cs, top.at? here = some (.folder cs)) ∧
        ((Path.leads piece = false ∧ top.walk here r = .found place n) ∨
          (Path.leads piece = true ∧
            (piece = ['.', '.'] ∨ (Text.encodeUtf8 piece).length ≤ maxNameBytes) ∧
            top.walk (Path.follow here piece) r = .found place n)) := by
  rw [walk]
  split
  · rename_i cs hcs
    have hfolder : ∃ cs, top.at? here = some (.folder cs) := ⟨cs, hcs⟩
    split
    · rename_i hstay
      have hleads : Path.leads piece = false := by
        rw [Bool.or_eq_true, decide_eq_true_eq, decide_eq_true_eq] at hstay
        rcases hstay with rfl | rfl <;> rfl
      simp [hfolder, hleads]
    · rename_i hstay
      have hleads : Path.leads piece = true := by simpa [Path.leads] using hstay
      by_cases hup : piece = ['.', '.']
      · subst hup
        simp [hfolder, hleads, Path.follow]
      · by_cases hlong : (Text.encodeUtf8 piece).length > maxNameBytes
        · have hshort : ¬ (Text.encodeUtf8 piece).length ≤ maxNameBytes := by omega
          simp [hup, hlong, hshort, hleads]
        · have hshort : (Text.encodeUtf8 piece).length ≤ maxNameBytes := by omega
          simp [hfolder, hup, hlong, hshort, hleads, Path.follow]
  · rename_i bytes hfile
    simp [hfile]
  · rename_i hnone
    simp [hnone]

theorem walk_nil_found_iff {top n : FileNode} {here place : List Text} :
    top.walk here [] = .found place n ↔ here = place ∧ top.at? here = some n := by
  rw [walk]
  split
  · rename_i m hm
    simp [hm]
  · rename_i hnone
    simp [hnone]

theorem walk_found {top n : FileNode} {pieces here place : List Text}
    (h : top.walk here pieces = .found place n) :
    place = (pieces.filter Path.leads).foldl Path.follow here ∧ top.at? place = some n := by
  induction pieces generalizing here with
  | nil =>
    obtain ⟨rfl, hat⟩ := walk_nil_found_iff.mp h
    exact ⟨rfl, hat⟩
  | cons piece r ih =>
    obtain ⟨-, ⟨hleads, hrest⟩ | ⟨hleads, -, hrest⟩⟩ := walk_cons_found_iff.mp h
    · rw [List.filter_cons_of_neg (by simp [hleads])]
      exact ih hrest
    · rw [List.filter_cons_of_pos hleads]
      exact ih hrest

/-- Pieces that lead nowhere can be left out of a walk that arrives. -/
theorem walk_filter {top n : FileNode} {pieces here place : List Text}
    (h : top.walk here pieces = .found place n) :
    top.walk here (pieces.filter Path.leads) = .found place n := by
  induction pieces generalizing here with
  | nil => exact h
  | cons piece r ih =>
    obtain ⟨hfolder, ⟨hleads, hrest⟩ | ⟨hleads, hshort, hrest⟩⟩ := walk_cons_found_iff.mp h
    · rw [List.filter_cons_of_neg (by simp [hleads])]
      exact ih hrest
    · rw [List.filter_cons_of_pos hleads]
      exact walk_cons_found_iff.mpr ⟨hfolder, Or.inr ⟨hleads, hshort, ih hrest⟩⟩

theorem walk_replicate_nil {top n : FileNode} {pieces here place : List Text} (k : Nat)
    (hfolder : 0 < k → ∃ cs, top.at? here = some (.folder cs))
    (h : top.walk here pieces = .found place n) :
    top.walk here (List.replicate k [] ++ pieces) = .found place n := by
  induction k with
  | zero => exact h
  | succ k ih =>
    have hrest := ih fun _ => hfolder (Nat.succ_pos k)
    exact walk_cons_found_iff.mpr ⟨hfolder (Nat.succ_pos k), Or.inl ⟨rfl, hrest⟩⟩

theorem exists_folder_at?_dropLast {top : FileNode} {cs : List (Text × FileNode)} {place : List Text}
    (h : top.at? place = some (.folder cs)) : ∃ cs', top.at? place.dropLast = some (.folder cs') := by
  induction place generalizing top with
  | nil => exact ⟨cs, h⟩
  | cons name r ih =>
    rw [at?] at h
    obtain ⟨c, hc, hr⟩ := Option.bind_eq_some_iff.mp h
    cases r with
    | nil =>
      cases top with
      | file bytes => simp [child?, children] at hc
      | folder cs' => exact ⟨cs', rfl⟩
    | cons next r =>
      obtain ⟨cs', hcs'⟩ := ih hr
      refine ⟨cs', ?_⟩
      rw [List.dropLast_cons_cons, at?, hc]
      exact hcs'

theorem getLast?_of_walk_file {top : FileNode} {bytes : List UInt8} {pieces here place : List Text}
    (hne : pieces ≠ []) (h : top.walk here pieces = .found place (.file bytes)) :
    ∃ name, pieces.getLast? = some name ∧ place.getLast? = some name := by
  induction pieces generalizing here with
  | nil => exact absurd rfl hne
  | cons piece r ih =>
    obtain ⟨⟨cs, hcs⟩, hstep⟩ := walk_cons_found_iff.mp h
    cases r with
    | nil =>
      rcases hstep with ⟨-, hrest⟩ | ⟨-, -, hrest⟩
      · obtain ⟨-, hat⟩ := walk_nil_found_iff.mp hrest
        simp [hcs] at hat
      · obtain ⟨rfl, hat⟩ := walk_nil_found_iff.mp hrest
        unfold Path.follow at hat ⊢
        split at hat
        · obtain ⟨cs', hcs'⟩ := exists_folder_at?_dropLast hcs
          simp [hcs'] at hat
        · rename_i hup
          exact ⟨piece, rfl, by simp [hup]⟩
    | cons next r =>
      have hlast : (piece :: next :: r).getLast? = (next :: r).getLast? := rfl
      rw [hlast]
      rcases hstep with ⟨-, hrest⟩ | ⟨-, -, hrest⟩
      · exact ih (by simp) hrest
      · exact ih (by simp) hrest

end FileNode

namespace Disk

def textAt (d : Disk) (place : List Text) : Option Text :=
  match d.top.look place with
  | some (some bytes) => if bytes.length > d.maxFileBytes then none else some (decode bytes).1
  | _ => none

theorem length_encodeUtf8_le {s t : Text} (h : s.Sublist t) :
    (Text.encodeUtf8 s).length ≤ (Text.encodeUtf8 t).length := by
  induction h with
  | slnil => exact Nat.le_refl _
  | cons c _ ih =>
    simp only [Text.encodeUtf8, List.flatMap_cons, List.length_append] at ih ⊢
    omega
  | cons_cons c _ ih =>
    simp only [Text.encodeUtf8, List.flatMap_cons, List.length_append] at ih ⊢
    omega

theorem arrive_found {d : Disk} {p : Text} {place : List Text} {n : FileNode}
    (h : d.arrive p = .found place n) :
    p ≠ [] ∧ (Text.encodeUtf8 p).length < FileNode.pathByteLimit ∧
      d.top.walk (if Path.isAbsolute p then [] else d.current) (Path.pieces p) = .found place n := by
  unfold arrive at h
  split at h
  · simp at h
  · rename_i hne
    split at h
    · simp at h
    · rename_i hlength
      exact ⟨hne, by omega, h⟩

theorem place_of_arrive {d : Disk} {p : Text} {place : List Text} {n : FileNode}
    (h : d.arrive p = .found place n) : place = Path.place d.current p :=
  (FileNode.walk_found (arrive_found h).2.2).1

/-- A tidied path arrives at the same file. -/
theorem arrive_tidy {d : Disk} {p : Text} {place : List Text} {bytes : List UInt8}
    (h : d.arrive p = .found place (.file bytes)) :
    d.arrive (Path.tidy p) = .found place (.file bytes) := by
  obtain ⟨-, hlength, hwalk⟩ := arrive_found h
  have hstart : ∃ cs, d.top.at? (if Path.isAbsolute p then [] else d.current) = some (.folder cs) := by
    cases hpieces : Path.pieces p with
    | nil => exact absurd hpieces (Text.splitWhere_ne_nil _ _)
    | cons piece r =>
      rw [hpieces] at hwalk
      exact (FileNode.walk_cons_found_iff.mp hwalk).1
  have hfiltered := FileNode.walk_filter hwalk
  have hcomponents : Path.components p ≠ [] := by
    intro hnil
    change d.top.walk _ (Path.components p) = _ at hfiltered
    rw [hnil] at hfiltered
    obtain ⟨cs, hcs⟩ := hstart
    simp [(FileNode.walk_nil_found_iff.mp hfiltered).2] at hcs
  obtain ⟨k, habsolute, hpieces, hsub⟩ := Path.exists_pieces_tidy hcomponents
  have hshort := length_encodeUtf8_le hsub
  rw [arrive, if_neg (Path.tidy_ne_nil p), if_neg (by omega), habsolute, hpieces]
  exact FileNode.walk_replicate_nil k (fun _ => hstart) hfiltered

theorem read_of_arrive {d : Disk} {p : Text} {place : List Text} {bytes : List UInt8}
    (h : d.arrive p = .found place (.file bytes)) (hnull : Path.hasNull p = false) :
    (d.read p).1 = d.textAt place := by
  have hlook : d.top.look place = some (some bytes) := by
    rw [FileNode.look, (FileNode.walk_found (arrive_found h).2.2).2]
    rfl
  rw [read, hnull, arrive_tidy h, textAt, hlook]
  simp only [Bool.false_eq_true, if_false]
  split
  · rfl
  · split
    · rename_i hdecode
      rw [hdecode]
    · rename_i hdecode
      rw [hdecode]

end Disk
end EditorInsight
