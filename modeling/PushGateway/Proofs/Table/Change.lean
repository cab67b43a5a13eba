import Mathlib.Data.List.Induction
/-!
Tables of rows that are entered in place of others.
-/

namespace PushGateway.Table

/-- Rows that are entered, and which of the rows before them stay; none of the entered would. -/
structure Change (α : Type) where
  entered : List α
  spares : α → Bool
  displaces : ∀ a ∈ entered, spares a = false

namespace Change

variable {α : Type} {c d : Change α} {rows : List α}

def idle : Change α := ⟨[], fun _ => true, nofun⟩

def wipe : Change α := ⟨[], fun _ => false, nofun⟩

def put (row : α) (spares : α → Bool) (displaces : spares row = false) : Change α where
  entered := [row]
  spares := spares
  displaces := by
    intro a only
    rw [List.mem_singleton.mp only, displaces]

def apply (c : Change α) (rows : List α) : List α := c.entered ++ rows.filter c.spares

def run (rows : List α) (cs : List (Change α)) : List α := cs.foldl (fun rows c => c.apply rows) rows

@[simp] theorem apply_idle (rows : List α) : idle.apply rows = rows := by simp [apply, idle]

@[simp] theorem apply_wipe (rows : List α) : wipe.apply rows = [] := by simp [apply, wipe]

theorem run_snoc (rows : List α) (cs : List (Change α)) (c : Change α) :
    run rows (cs ++ [c]) = c.apply (run rows cs) := by
  simp only [run, List.foldl_append, List.foldl_cons, List.foldl_nil]

theorem all_spares_snoc (cs : List (Change α)) (c : Change α) (a : α) :
    (cs ++ [c]).all (·.spares a) = (c.spares a && cs.all (·.spares a)) := by
  simp [Bool.and_comm]

/-- The rows after changes are those that the changes leave of their own, before those of the table that
every change spares. -/
theorem run_eq (rows : List α) (cs : List (Change α)) :
    run rows cs = run [] cs ++ rows.filter fun a => cs.all (·.spares a) := by
  -- from the end, since the last change filters what all the others have left
  induction cs using List.reverseRecOn with
  | nil => exact (List.filter_eq_self.mpr fun _ _ => rfl).symm
  | append_singleton cs c ih =>
    rw [run_snoc, run_snoc, ih]
    simp only [apply, List.filter_append, List.filter_filter, List.append_assoc, all_spares_snoc]

theorem not_spared {a : α} {cs : List (Change α)} (left : a ∈ run [] cs) : cs.all (·.spares a) = false := by
  induction cs using List.reverseRecOn with
  | nil => cases left
  | append_singleton cs c ih =>
    rw [run_snoc, apply] at left
    rw [all_spares_snoc]
    rcases List.mem_append.mp left with own | earlier
    · rw [c.displaces a own, Bool.false_and]
    · rw [ih (List.mem_filter.mp earlier).1, Bool.and_false]

theorem run_run (rows : List α) (cs : List (Change α)) : run (run rows cs) cs = run rows cs := by
  have gone : (run [] cs).filter (fun a => cs.all (·.spares a)) = [] := by
    refine List.filter_eq_nil_iff.mpr ?_
    intro a left
    simp [not_spared left]
  calc
    run (run rows cs) cs = run [] cs ++ (run rows cs).filter fun a => cs.all (·.spares a) := run_eq _ cs
    _ = run [] cs ++ rows.filter fun a => cs.all (·.spares a) := by
      rw [run_eq rows cs, List.filter_append, gone, List.filter_filter]
      simp only [List.nil_append, Bool.and_self]
    _ = run rows cs := (run_eq rows cs).symm

structure Apart (c d : Change α) : Prop where
  first : ∀ a ∈ c.entered, d.spares a
  second : ∀ a ∈ d.entered, c.spares a

theorem Apart.symm (h : Apart c d) : Apart d c := ⟨h.second, h.first⟩

theorem Apart.apply_both (h : Apart c d) (rows : List α) :
    d.apply (c.apply rows) = d.entered ++ (c.entered ++ rows.filter fun a => c.spares a && d.spares a) := by
  have kept : c.entered.filter d.spares = c.entered := List.filter_eq_self.mpr h.first
  simp only [apply, List.filter_append, kept, List.filter_filter, Bool.and_comm]

theorem Apart.perm (h : Apart c d) (rows : List α) :
    (d.apply (c.apply rows)).Perm (c.apply (d.apply rows)) := by
  rw [h.apply_both, h.symm.apply_both]
  simp only [Bool.and_comm (c.spares _)]
  exact List.perm_append_comm_assoc _ _ _

theorem Apart.find?_eq (h : Apart c d) (rows : List α) (p : α → Bool)
    (one : (∀ a ∈ c.entered, p a = false) ∨ ∀ a ∈ d.entered, p a = false) :
    (d.apply (c.apply rows)).find? p = (c.apply (d.apply rows)).find? p := by
  have none_of {as : List α} (without : ∀ a ∈ as, p a = false) : as.find? p = none := by
    refine List.find?_eq_none.mpr ?_
    intro a member
    simp [without a member]
  rw [h.apply_both, h.symm.apply_both]
  simp only [List.find?_append, Bool.and_comm (c.spares _)]
  rcases one with without | without <;> simp [none_of without]

end Change
end PushGateway.Table
