/-!
# Maps in order of first insertion

A finite map listed in the order in which its keys were first put. Putting a present key changes
its value and not its place.
-/

namespace EditorInsight

/-- An association list whose operations keep the keys distinct. -/
structure OrderedMap (κ α : Type) where
  entries : List (κ × α) := []
  deriving DecidableEq

namespace OrderedMap

variable {κ α : Type} [DecidableEq κ]

def empty : OrderedMap κ α := ⟨[]⟩

def isEmpty (m : OrderedMap κ α) : Bool := m.entries.isEmpty

def keys (m : OrderedMap κ α) : List κ := m.entries.map Prod.fst

def get? (m : OrderedMap κ α) (k : κ) : Option α :=
  (m.entries.find? fun e => e.1 = k).map Prod.snd

/-- The value in the place of the key, or at the end if the key is new. -/
def putEntry (k : κ) (v : α) : List (κ × α) → List (κ × α)
  | [] => [(k, v)]
  | e :: r => if e.1 = k then (k, v) :: r else e :: putEntry k v r

def put (m : OrderedMap κ α) (k : κ) (v : α) : OrderedMap κ α := ⟨putEntry k v m.entries⟩

def erase (m : OrderedMap κ α) (k : κ) : OrderedMap κ α := ⟨m.entries.filter fun e => e.1 ≠ k⟩

/-- Among distinct keys, an entry is found under its own. -/
theorem find?_of_mem {es : List (κ × α)} (hnodup : (es.map Prod.fst).Nodup) {e : κ × α} (h : e ∈ es) :
    es.find? (fun x => x.1 = e.1) = some e := by
  induction es with
  | nil => cases h
  | cons x es ih =>
    obtain ⟨hnotin, hnodup⟩ := List.nodup_cons.mp hnodup
    rcases List.mem_cons.mp h with rfl | hmem
    · simp
    · have hne : x.1 ≠ e.1 := fun hkey => hnotin (hkey ▸ List.mem_map_of_mem hmem)
      rw [List.find?_cons_of_neg (by simpa using hne)]
      exact ih hnodup hmem

theorem get?_of_mem {m : OrderedMap κ α} (hm : m.keys.Nodup) {k : κ} {v : α} (h : (k, v) ∈ m.entries) :
    m.get? k = some v :=
  congrArg (Option.map Prod.snd) (find?_of_mem hm h)

/-- A key that is put is found with its value, and every other key as before. -/
theorem get?_put (m : OrderedMap κ α) (k k' : κ) (v : α) :
    (m.put k v).get? k' = if k' = k then some v else m.get? k' := by
  obtain ⟨es⟩ := m
  simp only [get?, put]
  induction es with
  | nil =>
    by_cases h : k' = k
    · simp [putEntry, h]
    · simp [putEntry, h, Ne.symm h]
  | cons e r ih =>
    rw [putEntry]
    by_cases hk : e.1 = k
    · by_cases h : k' = k
      · simp [hk, h]
      · have h' : ¬k = k' := Ne.symm h
        simp [hk, h, h']
    · by_cases he : e.1 = k'
      · have h : ¬k' = k := fun h => hk (he.trans h)
        simp [he, h]
      · simpa [hk, he] using ih

/-- An erased key is not found, and every other key as before. -/
theorem get?_erase (m : OrderedMap κ α) (k k' : κ) :
    (m.erase k).get? k' = if k' = k then none else m.get? k' := by
  simp only [get?, erase, List.find?_filter]
  by_cases h : k' = k
  · simp [h]
  · rw [if_neg h]
    congr 2
    funext e
    simp only [decide_eq_true_eq, decide_eq_decide]
    exact ⟨And.right, fun he => ⟨by simpa [he] using h, he⟩⟩

end OrderedMap
end EditorInsight
