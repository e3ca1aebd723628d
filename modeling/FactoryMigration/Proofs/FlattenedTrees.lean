import FactoryMigration.Proofs.TreeLevels
import Mathlib.Data.Set.Card

set_option autoImplicit false

/-! # Flattened trees

Flattening goes through the branches of a tree only: a branch comes before its children, and these
come in their order, each with all that is flattened from it. A loop keeps its body, whatever there
is in it (`Activity.flatten_preorder`).

A node of a tree is found at its address, the list of the numbers of the children on the way to it.
The order of the nodes is the lexicographic order of their addresses, in which an address comes
before those it begins. -/

namespace FactoryMigration

namespace Activity

/-! ## Nodes and their addresses -/

/-- The node of a tree at an address. -/
def nodeAt? (activity : Activity) : List Nat → Option Activity
  | [] => some activity
  | number :: address => activity.children[number]?.bind (·.nodeAt? address)

@[simp]
theorem nodeAt?_nil (activity : Activity) : activity.nodeAt? [] = some activity := rfl

@[simp]
theorem nodeAt?_cons (activity : Activity) (number : Nat) (address : List Nat) :
    activity.nodeAt? (number :: address) =
      activity.children[number]?.bind (·.nodeAt? address) := rfl

/-! ## All levels

The addresses of the nodes among several trees begin with the number of their tree, counted from
that of the first. -/

/-- The addresses of the nodes of several trees, of which the nodes of each have addresses. -/
def under {α : Type} (addresses : α → List (List Nat)) : Nat → List α → List (List Nat)
  | _, [] => []
  | number, first :: rest =>
    (addresses first).map (number :: ·) ++ under addresses (number + 1) rest

section Under

variable {α β : Type} {addresses : α → List (List Nat)}

theorem mem_under_iff {trees : List α} {first : Nat} {address : List Nat} :
    address ∈ under addresses first trees ↔ ∃ number tree behind, trees[number]? = some tree ∧
      behind ∈ addresses tree ∧ address = (first + number) :: behind := by
  induction trees generalizing first with
  | nil => simp [under]
  | cons tree trees ih =>
    rw [under, List.mem_append, List.mem_map, ih]
    constructor
    · rintro (⟨behind, hbehind, rfl⟩ | ⟨number, other, behind, hother, hbehind, rfl⟩)
      · exact ⟨0, tree, behind, rfl, hbehind, rfl⟩
      · refine ⟨number + 1, other, behind, hother, hbehind, ?_⟩
        rw [Nat.add_assoc, Nat.add_comm 1 number]
    · rintro ⟨_ | number, other, behind, hother, hbehind, rfl⟩
      · cases hother
        exact .inl ⟨behind, hbehind, rfl⟩
      · refine .inr ⟨number, other, behind, hother, hbehind, ?_⟩
        rw [Nat.add_assoc, Nat.add_comm 1 number]

theorem pairwise_under {trees : List α} (h : ∀ tree ∈ trees, (addresses tree).Pairwise (· < ·))
    (first : Nat) : (under addresses first trees).Pairwise (· < ·) := by
  induction trees generalizing first with
  | nil => exact .nil
  | cons tree trees ih =>
    rw [under, List.pairwise_append]
    refine ⟨?_, ih (fun other hmem => h other (List.mem_cons_of_mem _ hmem)) _, ?_⟩
    · rw [List.pairwise_map]
      exact (h tree List.mem_cons_self).imp fun hlt => List.cons_lt_cons_self.mpr hlt
    · intro before hbefore behind hbehind
      obtain ⟨address, -, rfl⟩ := List.mem_map.mp hbefore
      obtain ⟨number, -, address', -, -, rfl⟩ := mem_under_iff.mp hbehind
      exact List.cons_lt_cons_iff.mpr (.inl (by omega))

/-- What holds of the nodes of each tree holds of the nodes of all. -/
theorem forall₂_under {relation : List Nat → β → Prop} {nodes : α → List β} {trees : List α}
    {first : Nat}
    (h : ∀ number tree, trees[number]? = some tree → List.Forall₂
      (fun address node => relation ((first + number) :: address) node)
      (addresses tree) (nodes tree)) :
    List.Forall₂ relation (under addresses first trees) (trees.flatMap nodes) := by
  induction trees generalizing first with
  | nil => exact .nil
  | cons tree trees ih =>
    rw [under, List.flatMap_cons]
    refine List.rel_append (List.forall₂_map_left_iff.mpr (h 0 tree rfl)) (ih ?_)
    intro number other hother
    have hbehind := h (number + 1) other hother
    rwa [Nat.add_comm number, ← Nat.add_assoc] at hbehind

end Under

/-- A list of activities shows the nodes of a tree at the given addresses: these are all there are,
in their order, and each node is shown without its children. -/
structure Shows (activity : Activity) (addresses : List (List Nat)) (nodes : List Activity) :
    Prop where
  ordered : addresses.Pairwise (· < ·)
  complete : ∀ address, address ∈ addresses ↔ (activity.nodeAt? address).isSome
  alone : List.Forall₂
    (fun address node => ∃ original, activity.nodeAt? address = some original ∧
      node = original.alone) addresses nodes

/-- A node is shown before what is shown of its children. -/
theorem Shows.step {activity : Activity} {addresses : Activity → List (List Nat)}
    (h : ∀ child ∈ activity.children, Shows child (addresses child) child.flatten) :
    Shows activity ([] :: under addresses 0 activity.children) activity.flatten where
  ordered := by
    refine List.pairwise_cons.mpr ⟨?_, pairwise_under (fun child hmem => (h child hmem).ordered) 0⟩
    intro address haddress
    obtain ⟨number, child, behind, -, -, rfl⟩ := mem_under_iff.mp haddress
    exact List.nil_lt_cons _ _
  complete := by
    intro address
    cases address with
    | nil => simp
    | cons number address =>
      rw [List.mem_cons, mem_under_iff, nodeAt?_cons, Option.isSome_bind]
      cases hchild : activity.children[number]? with
      | none => simp [hchild]
      | some child =>
        have hcomplete := (h child (List.mem_of_getElem? hchild)).complete address
        simp [hchild, hcomplete]
  alone := by
    rw [flatten_eq]
    refine .cons ⟨activity, rfl, rfl⟩ (forall₂_under fun number child hchild => ?_)
    refine (h child (List.mem_of_getElem? hchild)).alone.imp ?_
    rintro address node ⟨original, horiginal, rfl⟩
    refine ⟨original, ?_, rfl⟩
    rw [Nat.zero_add, nodeAt?_cons, hchild]
    exact horiginal

theorem exists_shows (activity : Activity) :
    ∃ addresses, Shows activity addresses activity.flatten := by
  induction activity using induction_children with
  | step activity ih =>
    -- one list of addresses is chosen for every activity, to be used for the children
    have hall (child : Activity) : ∃ addresses, child ∈ activity.children →
        Shows child addresses child.flatten := by
      by_cases hmem : child ∈ activity.children
      · exact (ih child hmem).imp fun addresses hshows _ => hshows
      · exact ⟨[], fun h => absurd h hmem⟩
    choose addresses haddresses using hall
    exact ⟨_, .step haddresses⟩

namespace Shows

variable {activity : Activity} {addresses : List (List Nat)} {nodes : List Activity}

/-- There are as many as the tree has nodes. -/
theorem length_eq (h : Shows activity addresses nodes) :
    nodes.length = {address | (activity.nodeAt? address).isSome}.ncard := by
  have hset : {address | (activity.nodeAt? address).isSome} = ↑addresses.toFinset := by
    ext address
    simp [h.complete]
  have hnodup : addresses.Nodup := h.ordered.imp fun hlt => ne_of_lt hlt
  rw [hset, Set.ncard_coe_finset, List.toFinset_card_of_nodup hnodup, h.alone.length_eq]

end Shows

/-- **Flattening.** A flattened tree shows the nodes that are reached through branches, each after
those above it and those before it, and without its children. It is as long as there are such nodes,
and there is nothing more to flatten in it. -/
theorem flatten_preorder (activity : Activity) :
    (∃ addresses, Shows activity addresses activity.flatten) ∧
      activity.flatten.length = {address | (activity.nodeAt? address).isSome}.ncard ∧
      activity.flatten.flatMap flatten = activity.flatten := by
  obtain ⟨addresses, h⟩ := exists_shows activity
  exact ⟨⟨addresses, h⟩, h.length_eq, activity.flatMap_flatten_flatten⟩

end Activity

end FactoryMigration
