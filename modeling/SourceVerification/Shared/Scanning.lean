import Mathlib.Data.List.Forall2

set_option autoImplicit false

namespace Scanning

variable {Mode Letter Out : Type} (step : Mode → Letter → Option Letter → Out × Mode)

def output : Mode → List Letter → Option Letter → List Out
  | _, [], _ => []
  | mode, letter :: rest, next =>
    let read := step mode letter (rest.head?.or next)
    read.1 :: output read.2 rest next

def final : Mode → List Letter → Option Letter → Mode
  | mode, [], _ => mode
  | mode, letter :: rest, next => final (step mode letter (rest.head?.or next)).2 rest next

@[simp] theorem output_nil (mode : Mode) (next : Option Letter) : output step mode [] next = [] := rfl

@[simp] theorem final_nil (mode : Mode) (next : Option Letter) : final step mode [] next = mode := rfl

theorem output_cons (mode : Mode) (letter : Letter) (rest : List Letter) (next : Option Letter) :
    output step mode (letter :: rest) next =
      (step mode letter (rest.head?.or next)).1 ::
        output step (step mode letter (rest.head?.or next)).2 rest next := rfl

theorem final_cons (mode : Mode) (letter : Letter) (rest : List Letter) (next : Option Letter) :
    final step mode (letter :: rest) next =
      final step (step mode letter (rest.head?.or next)).2 rest next := rfl

@[simp] theorem length_output (mode : Mode) (text : List Letter) (next : Option Letter) :
    (output step mode text next).length = text.length := by
  induction text generalizing mode with
  | nil => rfl
  | cons letter rest ih => simp [output_cons, ih]

theorem output_append (mode : Mode) (text rest : List Letter) (next : Option Letter) :
    output step mode (text ++ rest) next =
      output step mode text (rest.head?.or next) ++
        output step (final step mode text (rest.head?.or next)) rest next := by
  induction text generalizing mode with
  | nil => rfl
  | cons letter text ih =>
    simp only [List.cons_append, output_cons, final_cons, List.head?_append, Option.or_assoc, ih]

theorem final_append (mode : Mode) (text rest : List Letter) (next : Option Letter) :
    final step mode (text ++ rest) next =
      final step (final step mode text (rest.head?.or next)) rest next := by
  induction text generalizing mode with
  | nil => rfl
  | cons letter text ih =>
    simp only [List.cons_append, final_cons, List.head?_append, Option.or_assoc, ih]

theorem forall₂_output {keeps : Letter → Out → Prop}
    (each : ∀ mode letter next, keeps letter (step mode letter next).1)
    (mode : Mode) (text : List Letter) (next : Option Letter) :
    List.Forall₂ keeps text (output step mode text next) := by
  induction text generalizing mode with
  | nil => exact .nil
  | cons letter rest ih => exact .cons (each _ _ _) (ih _)

end Scanning
