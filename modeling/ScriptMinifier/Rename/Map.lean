import ScriptMinifier.Text.Order

/-!
# Rename maps

New names for old ones, each old name once, in ascending order.
-/

namespace ScriptMinifier

def insertBinding (name new : Text) : List (Text × Text) → List (Text × Text)
  | [] => [(name, new)]
  | (other, value) :: rest =>
      if Text.precedes name other then (name, new) :: (other, value) :: rest
      else if name = other then (name, new) :: rest
      else (other, value) :: insertBinding name new rest

/-- Bindings in the order of their names, so that no name is bound twice. -/
def Ascending (bindings : List (Text × Text)) : Prop :=
  bindings.Pairwise fun a b => Text.precedes a.1 b.1

theorem mem_insertBinding {name new : Text} {b : Text × Text}
    {bindings : List (Text × Text)}
    (h : b ∈ insertBinding name new bindings) :
    b.1 = name ∨ b ∈ bindings := by
  induction bindings with
  | nil => simp_all [insertBinding]
  | cons first rest ih =>
      unfold insertBinding at h
      split at h
      · rcases List.mem_cons.1 h with rfl | h
        · exact Or.inl rfl
        · exact Or.inr h
      · split at h
        · rcases List.mem_cons.1 h with rfl | h
          · exact Or.inl rfl
          · exact Or.inr (List.mem_cons_of_mem _ h)
        · rcases List.mem_cons.1 h with rfl | h
          · exact Or.inr List.mem_cons_self
          · exact (ih h).imp_right (List.mem_cons_of_mem _)

theorem ascending_insertBinding (name new : Text)
    {bindings : List (Text × Text)} (h : Ascending bindings) :
    Ascending (insertBinding name new bindings) := by
  induction bindings with
  | nil => simp [insertBinding, Ascending]
  | cons first rest ih =>
      obtain ⟨head, tail⟩ := List.pairwise_cons.1 h
      unfold insertBinding
      split
      · next before =>
          refine List.pairwise_cons.2 ⟨fun b hb => ?_, h⟩
          rcases List.mem_cons.1 hb with rfl | hb
          · exact before
          · exact Text.precedes_trans before (head b hb)
      · next not_before =>
          split
          · next eq =>
              exact List.pairwise_cons.2 ⟨fun b hb => eq ▸ head b hb, tail⟩
          · next ne =>
              refine List.pairwise_cons.2 ⟨fun b hb => ?_, ih tail⟩
              rcases mem_insertBinding hb with eq | hb
              · exact eq ▸ Text.precedes_of_not_precedes
                  (Bool.eq_false_iff.2 not_before) ne
              · exact head b hb

structure RenameMap where
  bindings : List (Text × Text)
  ascending : Ascending bindings
  deriving Repr, DecidableEq

namespace RenameMap

def empty : RenameMap := ⟨[], List.Pairwise.nil⟩

instance : Inhabited RenameMap := ⟨empty⟩

def insert (map : RenameMap) (name new : Text) : RenameMap :=
  ⟨insertBinding name new map.bindings,
    ascending_insertBinding name new map.ascending⟩

def size (map : RenameMap) : Nat := map.bindings.length

/-- The map with the given bindings; of several for one name the last counts. -/
def ofList (bindings : List (Text × Text)) : RenameMap :=
  bindings.foldl (fun map b => map.insert b.1 b.2) empty

end RenameMap

end ScriptMinifier
