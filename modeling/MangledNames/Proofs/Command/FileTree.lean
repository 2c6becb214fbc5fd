import MangledNames.Command.FileTree

/-!
# What writing a file changes

A file that has been written is found at its place, and at every other place is found what was there
before. Where paths lead does not enter: two paths name one file just if they lead to one place.
-/

namespace MangledNames.Command.FileTree

variable {tree : FileTree} {location : Location} {path : List UInt8}

/-- The entries with another one in place of those at a location. -/
def replaced (location : Location) (node : Node) (nodes : List (Location × Node)) :
    List (Location × Node) :=
  nodes.map fun entry => if entry.1 = location then (location, node) else entry

theorem find?_replaced {nodes : List (Location × Node)}
    (hin : nodes.any fun entry => entry.1 = location) (node : Node) :
    (replaced location node nodes).find? (fun entry => entry.1 = location) =
      some (location, node) := by
  induction nodes with
  | nil => cases hin
  | cons entry nodes ih =>
      by_cases hentry : entry.1 = location
      · simp [replaced, hentry]
      · have hrest : nodes.any fun entry => entry.1 = location := by simpa [hentry] using hin
        simpa [replaced, hentry] using ih hrest

theorem find?_replaced_of_ne {other : Location} (hother : other ≠ location) (node : Node)
    (nodes : List (Location × Node)) :
    (replaced location node nodes).find? (fun entry => entry.1 = other) =
      nodes.find? fun entry => entry.1 = other := by
  induction nodes with
  | nil => rfl
  | cons entry nodes ih =>
      by_cases hentry : entry.1 = location
      · have hskip : ¬ location = other := Ne.symm hother
        simpa [replaced, hentry, hskip] using ih
      · by_cases hfound : entry.1 = other
        · simp [replaced, hfound, hother]
        · simpa [replaced, hentry, hfound] using ih

theorem node?_write (hlocation : location ≠ []) (content : List UInt8) :
    (tree.write location content).node? location = some (.file content) := by
  rw [node?, if_neg hlocation, write]
  split
  next hin => exact congrArg (Option.map Prod.snd) (find?_replaced hin (.file content))
  next hnew =>
      have hnone : tree.nodes.find? (fun entry => entry.1 = location) = none := by
        rw [List.find?_eq_none]
        intro entry hmem hentry
        exact hnew (List.any_eq_true.mpr ⟨entry, hmem, hentry⟩)
      rw [List.find?_append, hnone]
      simp

theorem node?_write_of_ne {other : Location} (hother : other ≠ location) (content : List UInt8) :
    (tree.write location content).node? other = tree.node? other := by
  have hskip : ¬ location = other := Ne.symm hother
  have hnodes : (tree.write location content).nodes.find? (fun entry => entry.1 = other) =
      tree.nodes.find? fun entry => entry.1 = other := by
    rw [write]
    split
    next => exact find?_replaced_of_ne hother (.file content) tree.nodes
    next => simp [List.find?_append, hskip]
  rw [node?, node?, hnodes]

/-- The path is one of something that can be a file. -/
structure LeadsTo (tree : FileTree) (path : List UInt8) (location : Location) : Prop where
  locate : tree.locate path = .ok location
  endsWithSlash : endsWithSlash path = false

theorem openSource_of_file (hpath : tree.LeadsTo path location) {content : List UInt8}
    (hfile : tree.node? location = some (.file content)) :
    tree.openSource path = .ok location := by
  simp only [openSource, hpath.locate, bind, Except.bind, hfile, hpath.endsWithSlash]
  rfl

/-- Nothing is there, or a file. -/
def CanHoldFile (tree : FileTree) (location : Location) : Prop :=
  tree.node? location = none ∨ ∃ content, tree.node? location = some (.file content)

theorem CanHoldFile.ne_nil (hlocation : tree.CanHoldFile location) : location ≠ [] := by
  rintro rfl
  rcases hlocation with hnone | ⟨content, hfile⟩
  · cases hnone
  · cases hfile

theorem create_of_canHoldFile (hpath : tree.LeadsTo path location)
    (hlocation : tree.CanHoldFile location) :
    tree.create path = .ok (location, tree.write location []) := by
  simp only [create, hpath.locate, bind, Except.bind, hpath.endsWithSlash]
  rcases hlocation with hnone | ⟨content, hfile⟩
  · rw [hnone]
    rfl
  · rw [hfile]
    rfl

/-- Only a file or nothing is written over when a path is created. A device stays as it is. -/
theorem cases_of_create {created : FileTree} (hcreate : tree.create path = .ok (location, created)) :
    tree.LeadsTo path location ∧
      (tree.CanHoldFile location ∧ created = tree.write location [] ∨
        (∃ device, tree.node? location = some (.device device)) ∧ created = tree) := by
  cases hlocate : tree.locate path with
  | error error => simp [create, hlocate, bind, Except.bind] at hcreate
  | ok found =>
      simp only [create, hlocate, bind, Except.bind] at hcreate
      split at hcreate
      next => cases hcreate
      next hslash =>
          have hleads : tree.LeadsTo path found := ⟨hlocate, Bool.eq_false_iff.mpr hslash⟩
          split at hcreate
          next => cases hcreate
          next device hdevice =>
              cases hcreate
              exact ⟨hleads, .inr ⟨⟨device, hdevice⟩, rfl⟩⟩
          next hdirectory hdevice =>
              cases hcreate
              refine ⟨hleads, .inl ⟨?_, rfl⟩⟩
              cases hnode : tree.node? location with
              | none => exact .inl hnode
              | some node =>
                  cases node with
                  | file content => exact .inr ⟨content, hnode⟩
                  | directory => exact absurd hnode hdirectory
                  | device device => exact absurd hnode (hdevice device)

end MangledNames.Command.FileTree
