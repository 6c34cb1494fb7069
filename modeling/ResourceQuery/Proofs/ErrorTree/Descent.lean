import ResourceQuery.ErrorTree
import ResourceQuery.Proofs.Path.Text

/-!
# Looking up along a path

A look-up can be taken apart at every dot of its path: what the segments before the dot lead to is
where the segments after it start (`ErrorTree.at?_append_dot`). So a look-up is one step for each
segment, from the first to the last. It can also be described by its first step alone, the child for
the text before the first dot and a look-up for the text after it. That text is shorter than the
whole path, so there is one such look-up only (`ErrorTree.eq_descend_iff`). Main statement:
`ErrorTree.at?_composed`.
-/

set_option autoImplicit false

namespace ResourceQuery.ErrorTree

/-! ## Rows of segments -/

theorem follow?_append (tree : ErrorTree) (front back : List String) :
    tree.follow? (front ++ back) = (tree.follow? front).bind (·.follow? back) := by
  induction front generalizing tree with
  | nil => rfl
  | cons segment rest ih =>
      rw [List.cons_append, follow?, follow?, Option.bind_assoc]
      exact congrArg _ (funext ih)

theorem follow?_eq_foldlM (tree : ErrorTree) (segments : List String) :
    tree.follow? segments = segments.foldlM child? tree := by
  induction segments generalizing tree with
  | nil => rfl
  | cons segment rest ih =>
      rw [follow?, List.foldlM_cons]
      exact congrArg _ (funext ih)

/-! ## Texts -/

/-- What is found at two paths with a dot between them is found at the second one, from the place of
the first one on. -/
theorem at?_append_dot (tree : ErrorTree) (front back : String) :
    tree.at? (front ++ "." ++ back) = (tree.at? front).bind (·.at? back) := by
  rw [at?, Path.segments_ofText_append, follow?_append]
  rfl

/-- One step of a look-up: to the child for the text before the first dot, and from there on by
`look` for the text after it. -/
def descend (look : ErrorTree → String → Option ErrorTree) (tree : ErrorTree) (path : String) :
    Option ErrorTree :=
  match Path.cut path with
  | (head, none) => tree.child? head
  | (head, some tail) => (tree.child? head).bind fun child => look child tail

theorem at?_eq_descend (tree : ErrorTree) (path : String) :
    tree.at? path = descend at? tree path := by
  rw [descend]
  split
  · rename_i head hcut
    rw [at?, Path.segments_of_cut_eq_none hcut, follow?]
    exact Option.bind_fun_some (tree.child? head)
  · rename_i head tail hcut
    rw [at?, Path.segments_of_cut_eq_some hcut, follow?]
    rfl

/-- A look-up that takes one step and goes on in the same way is the look-up by segments. -/
theorem eq_descend_iff {look : ErrorTree → String → Option ErrorTree} :
    look = descend look ↔ look = at? := by
  constructor
  · intro hlook
    funext tree path
    -- the text after the dot is shorter
    induction hlength : path.length using Nat.strongRecOn generalizing tree path with
    | ind length ih =>
        rw [hlook, at?_eq_descend, descend, descend]
        split
        · rfl
        · rename_i head tail hcut
          have hshorter : tail.length < length := hlength ▸ Path.length_lt_of_cut_eq_some hcut
          exact congrArg _ (funext fun child => ih tail.length hshorter child tail rfl)
  · rintro rfl
    funext tree path
    exact at?_eq_descend tree path

/-- **Looking up along a path composes.** A path can be taken apart at every dot, also next to
another dot and at its ends. A look-up goes from child to child, one segment after the other, and it
is the only one that goes to the child for the text before the first dot and then looks up the text
after it, which is shorter. -/
theorem at?_composed :
    (∀ (tree : ErrorTree) (front back : String),
        tree.at? (front ++ "." ++ back) = (tree.at? front).bind (·.at? back))
      ∧ (∀ (tree : ErrorTree) (path : String),
        tree.at? path = ((path.toList.splitOn '.').map String.ofList).foldlM child? tree)
      ∧ (∀ look : ErrorTree → String → Option ErrorTree, look = descend look ↔ look = at?)
      ∧ ∀ path head tail : String, Path.cut path = (head, some tail) →
        tail.length < path.length := by
  refine ⟨at?_append_dot, ?_, fun _ => eq_descend_iff,
    fun _ _ _ => Path.length_lt_of_cut_eq_some⟩
  intro tree path
  rw [at?, follow?_eq_foldlM, Path.segments_ofText]

/-- Empty names at both ends of a path, and an index with zeros in front. -/
theorem at?_composed_empty_segments :
    let tree : ErrorTree := .map [("", .map [("a", .list [(7, .map [("", .messages ["x"])])])])]
    tree.at? (".a" ++ "." ++ "007.") = some (.messages ["x"])
      ∧ tree.at? ("b" ++ "." ++ "007.") = none
      ∧ Path.cut ".a.007." = ("", some "a.007.")
      ∧ "a.007.".length < ".a.007.".length := by
  intro tree
  have hcut : Path.cut ".a.007." = ("", some "a.007.") := by decide +kernel
  obtain ⟨hdot, -, -, hshorter⟩ := at?_composed
  refine ⟨?_, ?_, hcut, hshorter _ _ _ hcut⟩
  · rw [hdot]
    rfl
  · rw [hdot]
    rfl

end ResourceQuery.ErrorTree
