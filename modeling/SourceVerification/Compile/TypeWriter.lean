import Mathlib.Algebra.GroupWithZero.Nat
import Mathlib.Data.Finset.Card
import SourceVerification.Compile.TypeLayers

set_option autoImplicit false

namespace SourceVerification.Compile.Types

/-- What is done with the references being unfolded at hand, the last one at the end. `none` is out of fuel. -/
def Write (ρ α : Type) : Type :=
  List ρ → Option (Except String α × List ρ)

namespace Write

variable {ρ α β : Type}

def pure (value : α) : Write ρ α := fun unfolding => some (.ok value, unfolding)

def fail (message : String) : Write ρ α := fun unfolding => some (.error message, unfolding)

-- `?` on a result.
def bind (first : Write ρ α) (next : α → Write ρ β) : Write ρ β := fun unfolding =>
  match first unfolding with
  | none => none
  | some (.error message, after) => some (.error message, after)
  | some (.ok value, after) => next value after

instance : Monad (Write ρ) where
  pure := pure
  bind := bind

end Write

section

variable {ρ α β : Type} (f : α → Write ρ β)

def collect : List α → Write ρ (List β)
  | [] => pure []
  | item :: rest => do
    let first ← f item
    let others ← collect rest
    pure (first :: others)

def writeOption : Option α → Write ρ (Option β)
  | none => pure none
  | some value => do
    let value ← f value
    pure (some value)

def Field.write (field : Field α) : Write ρ (Field β) := do
  let ty ← f field.ty
  pure ⟨field.name, field.index, field.align, field.offset, ty⟩

def fitsU64 (discriminantValue : Option Nat) : Bool :=
  discriminantValue.all (· < 2 ^ 64)

def Variant.write (variant : Variant α) : Write ρ (Variant β) :=
  if fitsU64 variant.discriminantValue then do
    let value ← writeOption f variant.value
    pure ⟨variant.name, variant.discriminantValue, value⟩
  else
    .fail ("discriminant of '" ++ variant.name ++ "' does not fit in a u64")

def StructType.write (structTy : StructType α) : Write ρ (StructType β) := do
  let fields ← collect (Field.write f) structTy.fields
  pure ⟨structTy.name, structTy.repr, structTy.size, fields⟩

def EnumType.write (enumTy : EnumType α) : Write ρ (EnumType β) := do
  let variants ← collect (Variant.write f) enumTy.variants
  let discriminant ← f enumTy.discriminant
  pure ⟨enumTy.name, discriminant, variants, enumTy.variantOffsets, enumTy.sizeInBytes, enumTy.minAlignment⟩

def Aggregate.write : Aggregate α → Write ρ (Aggregate β)
  | .struct structTy => do
    let written ← structTy.write f
    pure (.struct written)
  | .enum enumTy => do
    let written ← enumTy.write f
    pure (.enum written)

def FunctionType.write (functionTy : FunctionType α) : Write ρ (FunctionType β) := do
  let params ← collect f functionTy.params
  let results ← collect f functionTy.results
  pure ⟨functionTy.abi, params, results⟩

def Shape.write : Shape α → Write ρ (Shape β)
  | .scalar kind => pure (.scalar kind)
  | .ptr addrspace pointee => do
    let pointee ← f pointee
    pure (.ptr addrspace pointee)
  | .array ty len => do
    let ty ← f ty
    pure (.array ty len)
  | .list inner => do
    let inner ← f inner
    pure (.list inner)
  | .function functionTy => do
    let written ← functionTy.write f
    pure (.function written)

end

section

variable {ρ : Type} [DecidableEq ρ] (definition : ρ → Aggregate (Ty ρ))

def aggregate (ty : Ty ρ → Write ρ Json) (written : Aggregate (Ty ρ)) : Write ρ Json := do
  let written ← written.write ty
  pure written.json

/-- `TypeWriter::ty`, down to a depth. A reference's name is its definition's. -/
def ty : Nat → Ty ρ → Write ρ Json
  | 0, _ => fun _ => none
  | fuel + 1, .shape shape => do
    let written ← shape.write (ty fuel)
    pure written.json
  | fuel + 1, .plain plain => aggregate (ty fuel) plain
  | fuel + 1, .recursive ref => fun unfolding =>
    if ref ∈ unfolding then some (.ok (recJson (definition ref).name), unfolding)
    else
      match aggregate (ty fuel) (definition ref) (unfolding ++ [ref]) with
      | none => none
      | some (value, after) => some (value, after.dropLast)

end

structure Respects {ρ : Type} (related : ∀ {α : Type}, Write ρ α → Write ρ α → Prop) : Prop where
  pure : ∀ {α : Type} (value : α), related (Write.pure value) (Write.pure value)
  fail : ∀ {α : Type} (message : String), related (Write.fail message : Write ρ α) (Write.fail message)
  bind : ∀ {α β : Type} {first other : Write ρ α} {next following : α → Write ρ β}, related first other →
    (∀ value, related (next value) (following value)) → related (first.bind next) (other.bind following)

namespace Respects

variable {ρ α β : Type} {related : ∀ {α : Type}, Write ρ α → Write ρ α → Prop} {f g : α → Write ρ β}
  (respects : Respects @related)

include respects

theorem collect {items : List α} (all : ∀ item ∈ items, related (f item) (g item)) :
    related (collect f items) (collect g items) := by
  induction items with
  | nil => exact respects.pure []
  | cons item rest ih =>
    have others := ih fun other member => all other (List.mem_cons_of_mem _ member)
    exact respects.bind (all item (List.mem_cons_self ..)) fun _ => respects.bind others fun _ => respects.pure _

theorem field {field : Field α} (same : related (f field.ty) (g field.ty)) : related (field.write f) (field.write g) :=
  respects.bind same fun _ => respects.pure _

theorem variant {variant : Variant α} (all : ∀ value ∈ variant.value, related (f value) (g value)) :
    related (variant.write f) (variant.write g) := by
  rw [Variant.write, Variant.write]
  split
  next =>
    refine respects.bind ?_ fun _ => respects.pure _
    cases present : variant.value with
    | none => exact respects.pure none
    | some value => exact respects.bind (all value present) fun _ => respects.pure _
  next => exact respects.fail _

theorem aggregate {aggregate : Aggregate α} (all : ∀ child ∈ aggregate.children, related (f child) (g child)) :
    related (aggregate.write f) (aggregate.write g) := by
  cases aggregate with
  | struct structTy =>
    have fields : related (Types.collect (Field.write f) structTy.fields) (Types.collect (Field.write g) structTy.fields) :=
      respects.collect fun field member => respects.field (all _ (List.mem_map_of_mem member))
    exact respects.bind (respects.bind fields fun _ => respects.pure _) fun _ => respects.pure _
  | enum enumTy =>
    have variants : related (Types.collect (Variant.write f) enumTy.variants)
        (Types.collect (Variant.write g) enumTy.variants) :=
      respects.collect fun variant member => respects.variant fun value present =>
        all value (List.mem_append_left _ (List.mem_filterMap.mpr ⟨variant, member, present⟩))
    have discriminant := all enumTy.discriminant (List.mem_append_right _ (List.mem_singleton_self _))
    exact respects.bind (respects.bind variants fun _ => respects.bind discriminant fun _ => respects.pure _)
      fun _ => respects.pure _

theorem shape {shape : Shape α} (all : ∀ child ∈ shape.children, related (f child) (g child)) :
    related (shape.write f) (shape.write g) := by
  cases shape with
  | scalar kind => exact respects.pure _
  | ptr addrspace pointee => exact respects.bind (all _ (List.mem_singleton_self _)) fun _ => respects.pure _
  | array ty len => exact respects.bind (all _ (List.mem_singleton_self _)) fun _ => respects.pure _
  | list inner => exact respects.bind (all _ (List.mem_singleton_self _)) fun _ => respects.pure _
  | function functionTy =>
    have params := respects.collect fun child member => all child (List.mem_append_left _ member)
    have results := respects.collect fun child member => all child (List.mem_append_right _ member)
    exact respects.bind (respects.bind params fun _ => respects.bind results fun _ => respects.pure _)
      fun _ => respects.pure _

theorem layer {shape : Shape α} {f g : α → Write ρ Json} (all : ∀ child ∈ shape.children, related (f child) (g child)) :
    related ((shape.write f).bind fun written => Write.pure written.json)
      ((shape.write g).bind fun written => Write.pure written.json) :=
  respects.bind (respects.shape all) fun _ => respects.pure _

theorem written {parts : Aggregate (Ty ρ)} {f g : Ty ρ → Write ρ Json}
    (all : ∀ child ∈ parts.children, related (f child) (g child)) :
    related (Types.aggregate f parts) (Types.aggregate g parts) :=
  respects.bind (respects.aggregate all) fun _ => respects.pure _

end Respects

namespace Write

variable {ρ α : Type}

def Restores (write : Write ρ α) : Prop :=
  ∀ unfolding result after, write unfolding = some (result, after) → after = unfolding

def Settles (unfolding : List ρ) (write : Write ρ α) : Prop :=
  ∃ result, write unfolding = some (result, unfolding)

def Extends (write other : Write ρ α) : Prop :=
  ∀ unfolding answer, write unfolding = some answer → other unfolding = some answer

theorem restores : Respects fun {_} (write _ : Write ρ _) => write.Restores where
  pure value := by
    intro unfolding result after same
    exact (Prod.mk.inj (Option.some.inj same)).2.symm
  fail message := by
    intro unfolding result after same
    exact (Prod.mk.inj (Option.some.inj same)).2.symm
  bind := by
    intro α β first other next following restored all unfolding result after same
    rw [Write.bind] at same
    split at same
    next => cases same
    next message between answered =>
      obtain rfl := (Prod.mk.inj (Option.some.inj same)).2
      exact restored _ _ _ answered
    next value between answered =>
      obtain rfl := restored _ _ _ answered
      exact all value _ _ _ same

theorem settles (unfolding : List ρ) : Respects fun {_} (write _ : Write ρ _) => write.Settles unfolding where
  pure value := ⟨.ok value, rfl⟩
  fail message := ⟨.error message, rfl⟩
  bind := by
    intro α β first other next following settled all
    obtain ⟨result, answered⟩ := settled
    cases result with
    | error message => exact ⟨.error message, by rw [Write.bind, answered]⟩
    | ok value =>
      obtain ⟨result, answer⟩ := all value
      exact ⟨result, by rw [Write.bind, answered]; exact answer⟩

theorem extended : Respects fun {_} (write other : Write ρ _) => write.Extends other where
  pure value := fun _ _ same => same
  fail message := fun _ _ same => same
  bind := by
    intro α β first other next following more all unfolding answer same
    rw [Write.bind] at same
    split at same
    next => cases same
    next message between answered =>
      rw [Write.bind, more _ _ answered]
      exact same
    next value between answered =>
      rw [Write.bind, more _ _ answered]
      exact all value _ _ same

end Write

section

variable {ρ : Type} [DecidableEq ρ] (definition : ρ → Aggregate (Ty ρ))

theorem ty_restores (fuel : Nat) (t : Ty ρ) : (ty definition fuel t).Restores := by
  induction fuel generalizing t with
  | zero =>
    intro unfolding result after same
    cases same
  | succ fuel ih =>
    cases t with
    | shape shape => exact Write.restores.layer (g := ty definition fuel) fun child _ => ih child
    | plain plain => exact Write.restores.written (g := ty definition fuel) fun child _ => ih child
    | recursive ref =>
      intro unfolding result after same
      simp only [ty] at same
      split at same
      next => exact (Prod.mk.inj (Option.some.inj same)).2.symm
      next =>
        split at same
        next => cases same
        next value between answered =>
          have whole : (aggregate (ty definition fuel) (definition ref)).Restores :=
            Write.restores.written (g := ty definition fuel) fun child _ => ih child
          obtain rfl := whole _ _ _ answered
          have popped := (Prod.mk.inj (Option.some.inj same)).2
          rw [List.dropLast_concat] at popped
          exact popped.symm

theorem ty_extends (fuel : Nat) (t : Ty ρ) : (ty definition fuel t).Extends (ty definition (fuel + 1) t) := by
  induction fuel generalizing t with
  | zero =>
    intro unfolding answer same
    cases same
  | succ fuel ih =>
    cases t with
    | shape shape => exact Write.extended.layer fun child _ => ih child
    | plain plain => exact Write.extended.written fun child _ => ih child
    | recursive ref =>
      have whole : (aggregate (ty definition fuel) (definition ref)).Extends
          (aggregate (ty definition (fuel + 1)) (definition ref)) :=
        Write.extended.written fun child _ => ih child
      intro unfolding answer same
      simp only [ty] at same ⊢
      split at same
      next inside =>
        rw [if_pos inside]
        exact same
      next outside =>
        rw [if_neg outside]
        split at same
        next => cases same
        next value between answered =>
          rw [whole _ _ answered]
          exact same

theorem ty_more {fuel more : Nat} (enough : fuel ≤ more) (t : Ty ρ) :
    (ty definition fuel t).Extends (ty definition more t) := by
  induction enough with
  | refl => exact fun _ _ same => same
  | step _ ih => exact fun unfolding answer same => ty_extends definition _ t _ _ (ih unfolding answer same)

end

theorem sizeOf_ty_lt {ρ : Type} {fields : List (Field (Ty ρ))} {child : Ty ρ} (member : child ∈ fields.map Field.ty) :
    sizeOf child < sizeOf fields := by
  obtain ⟨field, inside, rfl⟩ := List.mem_map.mp member
  have smaller := List.sizeOf_lt_of_mem inside
  cases field
  simp only [Field.mk.sizeOf_spec] at smaller ⊢
  omega

theorem sizeOf_value_lt {ρ : Type} {variants : List (Variant (Ty ρ))} {child : Ty ρ}
    (member : child ∈ variants.filterMap Variant.value) : sizeOf child < sizeOf variants := by
  obtain ⟨variant, inside, present⟩ := List.mem_filterMap.mp member
  have smaller := List.sizeOf_lt_of_mem inside
  cases variant
  simp only [Variant.mk.sizeOf_spec] at smaller
  subst present
  simp only [Option.some.sizeOf_spec] at smaller
  omega

theorem Aggregate.sizeOf_children {ρ : Type} {aggregate : Aggregate (Ty ρ)} {child : Ty ρ}
    (member : child ∈ aggregate.children) : sizeOf child < sizeOf aggregate := by
  cases aggregate with
  | struct structTy =>
    have smaller := sizeOf_ty_lt member
    cases structTy
    simp only [Aggregate.struct.sizeOf_spec, StructType.mk.sizeOf_spec] at smaller ⊢
    omega
  | enum enumTy =>
    cases enumTy
    simp only [Aggregate.enum.sizeOf_spec, EnumType.mk.sizeOf_spec]
    rcases List.mem_append.mp member with value | discriminant
    · have smaller := sizeOf_value_lt value
      dsimp only at smaller
      omega
    · obtain rfl := List.mem_singleton.mp discriminant
      omega

theorem Shape.sizeOf_children {ρ : Type} {shape : Shape (Ty ρ)} {child : Ty ρ} (member : child ∈ shape.children) :
    sizeOf child < sizeOf shape := by
  cases shape with
  | scalar kind => cases member
  | ptr addrspace pointee =>
    obtain rfl := List.mem_singleton.mp member
    simp only [Shape.ptr.sizeOf_spec]
    omega
  | array ty len =>
    obtain rfl := List.mem_singleton.mp member
    simp only [Shape.array.sizeOf_spec]
    omega
  | list inner =>
    obtain rfl := List.mem_singleton.mp member
    simp only [Shape.list.sizeOf_spec]
    omega
  | function functionTy =>
    cases functionTy
    simp only [Shape.function.sizeOf_spec, FunctionType.mk.sizeOf_spec]
    rcases List.mem_append.mp member with param | result
    · have smaller := List.sizeOf_lt_of_mem param
      dsimp only at smaller
      omega
    · have smaller := List.sizeOf_lt_of_mem result
      dsimp only at smaller
      omega

theorem Ty.inside {ρ : Type} {motive : Ty ρ → Prop}
    (shape : ∀ shape : Shape (Ty ρ), (∀ child ∈ shape.children, motive child) → motive (.shape shape))
    (plain : ∀ plain : Aggregate (Ty ρ), (∀ child ∈ plain.children, motive child) → motive (.plain plain))
    (recursive : ∀ ref, motive (.recursive ref)) (t : Ty ρ) : motive t := by
  induction size : sizeOf t using Nat.strong_induction_on generalizing t with
  | _ size ih =>
    subst size
    cases t with
    | shape parts =>
      refine shape parts fun child member => ih _ ?_ child rfl
      have smaller := Shape.sizeOf_children member
      simp only [Ty.shape.sizeOf_spec]
      omega
    | plain parts =>
      refine plain parts fun child member => ih _ ?_ child rfl
      have smaller := Aggregate.sizeOf_children member
      simp only [Ty.plain.sizeOf_spec]
      omega
    | recursive ref => exact recursive ref

inductive Mentions {ρ : Type} : Ty ρ → ρ → Prop
  | shape {shape : Shape (Ty ρ)} {child : Ty ρ} {ref : ρ} (inside : child ∈ shape.children) (mentioned : Mentions child ref) :
      Mentions (.shape shape) ref
  | plain {parts : Aggregate (Ty ρ)} {child : Ty ρ} {ref : ρ} (inside : child ∈ parts.children)
      (mentioned : Mentions child ref) : Mentions (.plain parts) ref
  | recursive (ref : ρ) : Mentions (.recursive ref) ref

section

variable {ρ : Type} [DecidableEq ρ] (definition : ρ → Aggregate (Ty ρ))

def Closed (refs : Finset ρ) : Prop :=
  ∀ ref ∈ refs, ∀ child ∈ (definition ref).children, ∀ other, Mentions child other → other ∈ refs

theorem settle_all {unfolding : List ρ} {types : List (Ty ρ)}
    (all : ∀ t ∈ types, ∃ fuel, (ty definition fuel t).Settles unfolding) :
    ∃ fuel, ∀ t ∈ types, (ty definition fuel t).Settles unfolding := by
  induction types with
  | nil => exact ⟨0, by simp⟩
  | cons t rest ih =>
    obtain ⟨first, result, settled⟩ := all t (List.mem_cons_self ..)
    obtain ⟨others, both⟩ := ih fun other member => all other (List.mem_cons_of_mem _ member)
    refine ⟨max first others, List.forall_mem_cons.mpr ⟨?_, fun other member => ?_⟩⟩
    · exact ⟨result, ty_more definition (by omega) t _ _ settled⟩
    · obtain ⟨result, settled⟩ := both other member
      exact ⟨result, ty_more definition (by omega) other _ _ settled⟩

theorem left_lt {refs : Finset ρ} {unfolding : List ρ} {ref : ρ} (member : ref ∈ refs) (outside : ref ∉ unfolding) :
    (refs.filter (· ∉ unfolding ++ [ref])).card < (refs.filter (· ∉ unfolding)).card := by
  refine Finset.card_lt_card (Finset.ssubset_iff_of_subset ?_ |>.mpr ⟨ref, ?_, ?_⟩)
  · intro other inside
    simp only [Finset.mem_filter, List.mem_append, not_or] at inside ⊢
    exact ⟨inside.1, inside.2.1⟩
  · exact Finset.mem_filter.mpr ⟨member, outside⟩
  · simp

theorem ty_settles {refs : Finset ρ} (closed : Closed definition refs) {t : Ty ρ}
    (known : ∀ ref, Mentions t ref → ref ∈ refs) (unfolding : List ρ) :
    ∃ fuel, (ty definition fuel t).Settles unfolding := by
  induction left : (refs.filter (· ∉ unfolding)).card using Nat.strong_induction_on generalizing t unfolding with
  | _ left ih =>
    subst left
    induction t using Ty.inside with
    | shape shape inner =>
      obtain ⟨fuel, all⟩ := settle_all definition fun child member =>
        inner child member fun ref mentioned => known ref (.shape member mentioned)
      exact ⟨fuel + 1, (Write.settles unfolding).layer (g := ty definition fuel) all⟩
    | plain parts inner =>
      obtain ⟨fuel, all⟩ := settle_all definition fun child member =>
        inner child member fun ref mentioned => known ref (.plain member mentioned)
      exact ⟨fuel + 1, (Write.settles unfolding).written (g := ty definition fuel) all⟩
    | recursive ref =>
      by_cases inside : ref ∈ unfolding
      next => exact ⟨1, _, by simp only [ty, if_pos inside]; rfl⟩
      next =>
        have member := known ref (.recursive ref)
        obtain ⟨fuel, all⟩ := settle_all definition fun child part =>
          ih _ (left_lt member inside) (closed ref member child part) (unfolding ++ [ref]) rfl
        obtain ⟨result, settled⟩ := (Write.settles _).written (g := ty definition fuel) all
        refine ⟨fuel + 1, result, ?_⟩
        simp only [ty, if_neg inside, settled, List.dropLast_concat]

end

namespace Write

variable {ρ α β : Type}

def Gives (unfolding : List ρ) (write : Write ρ α) (post : α → Prop) : Prop :=
  ∀ value after, write unfolding = some (.ok value, after) → after = unfolding ∧ post value

theorem Gives.pure {unfolding : List ρ} {value : α} {post : α → Prop} (known : post value) :
    (Write.pure value).Gives unfolding post := by
  intro other after same
  obtain ⟨value, rfl⟩ := Prod.mk.inj (Option.some.inj same)
  obtain rfl := Except.ok.inj value
  exact ⟨rfl, known⟩

theorem Gives.fail {unfolding : List ρ} {message : String} {post : α → Prop} :
    (Write.fail message : Write ρ α).Gives unfolding post := by
  intro value after same
  cases same

theorem Gives.bind {unfolding : List ρ} {first : Write ρ α} {next : α → Write ρ β} {post : α → Prop} {final : β → Prop}
    (given : first.Gives unfolding post) (all : ∀ value, post value → (next value).Gives unfolding final) :
    (first.bind next).Gives unfolding final := by
  intro value after same
  rw [Write.bind] at same
  split at same
  next => cases same
  next => cases same
  next between state answered =>
    obtain ⟨rfl, known⟩ := given _ _ answered
    exact all between known value after same

end Write

section

variable {ρ α β : Type} {f : α → Write ρ β} {unfolding : List ρ} {answer : α → β} {part : α → Prop}

theorem collect_gives {items : List α}
    (all : ∀ item ∈ items, (f item).Gives unfolding fun value => value = answer item ∧ part item) :
    (collect f items).Gives unfolding fun values => values = items.map answer ∧ ∀ item ∈ items, part item := by
  induction items with
  | nil => exact .pure ⟨rfl, by simp⟩
  | cons item rest ih =>
    refine (all item (List.mem_cons_self ..)).bind fun first known => ?_
    refine (ih fun other member => all other (List.mem_cons_of_mem _ member)).bind fun others following => .pure ?_
    rw [known.1, following.1]
    exact ⟨rfl, List.forall_mem_cons.mpr ⟨known.2, following.2⟩⟩

theorem writeOption_gives {value : Option α}
    (all : ∀ one ∈ value, (f one).Gives unfolding fun written => written = answer one ∧ part one) :
    (writeOption f value).Gives unfolding fun written => written = value.map answer ∧ ∀ one ∈ value, part one := by
  cases value with
  | none => exact .pure ⟨rfl, by simp⟩
  | some value =>
    refine (all value rfl).bind fun written known => .pure ?_
    rw [known.1]
    exact ⟨rfl, fun other same => Option.some.inj same ▸ known.2⟩

theorem Field.gives {field : Field α}
    (given : (f field.ty).Gives unfolding fun written => written = answer field.ty ∧ part field.ty) :
    (field.write f).Gives unfolding fun written => written = field.map answer ∧ part field.ty :=
  given.bind fun _ known => .pure ⟨by rw [known.1, Field.map], known.2⟩

theorem Variant.gives {variant : Variant α}
    (all : ∀ value ∈ variant.value, (f value).Gives unfolding fun written => written = answer value ∧ part value) :
    (variant.write f).Gives unfolding fun written =>
      written = variant.map answer ∧ ∀ value ∈ variant.value, part value := by
  rw [Variant.write]
  split
  next => exact (writeOption_gives all).bind fun _ known => .pure ⟨by rw [known.1, Variant.map], known.2⟩
  next => exact .fail

theorem StructType.gives {structTy : StructType α} (all : ∀ child ∈ (Aggregate.struct structTy).children,
      (f child).Gives unfolding fun value => value = answer child ∧ part child) :
    (structTy.write f).Gives unfolding fun written => Aggregate.struct written = (Aggregate.struct structTy).map answer ∧
      ∀ child ∈ (Aggregate.struct structTy).children, part child := by
  have fields : (collect (Field.write f) structTy.fields).Gives unfolding fun fields =>
      fields = structTy.fields.map (Field.map answer) ∧ ∀ field ∈ structTy.fields, part field.ty :=
    collect_gives fun field member => Field.gives (all _ (List.mem_map_of_mem member))
  refine fields.bind fun written known => .pure ⟨by rw [known.1, Aggregate.map], fun child member => ?_⟩
  obtain ⟨field, inside, rfl⟩ := List.mem_map.mp member
  exact known.2 field inside

theorem EnumType.gives {enumTy : EnumType α} (all : ∀ child ∈ (Aggregate.enum enumTy).children,
      (f child).Gives unfolding fun value => value = answer child ∧ part child) :
    (enumTy.write f).Gives unfolding fun written => Aggregate.enum written = (Aggregate.enum enumTy).map answer ∧
      ∀ child ∈ (Aggregate.enum enumTy).children, part child := by
  have variants : (collect (Variant.write f) enumTy.variants).Gives unfolding fun variants =>
      variants = enumTy.variants.map (Variant.map answer) ∧
        ∀ variant ∈ enumTy.variants, ∀ value ∈ variant.value, part value :=
    collect_gives fun variant member => Variant.gives fun value present =>
      all value (List.mem_append_left _ (List.mem_filterMap.mpr ⟨variant, member, present⟩))
  have discriminant := all enumTy.discriminant (List.mem_append_right _ (List.mem_singleton_self _))
  refine variants.bind fun written known => discriminant.bind fun value given => .pure ⟨?_, fun child member => ?_⟩
  · rw [known.1, given.1, Aggregate.map]
  · rcases List.mem_append.mp member with inside | last
    · obtain ⟨variant, member, present⟩ := List.mem_filterMap.mp inside
      exact known.2 variant member child present
    · exact List.mem_singleton.mp last ▸ given.2

theorem Aggregate.gives {aggregate : Aggregate α}
    (all : ∀ child ∈ aggregate.children, (f child).Gives unfolding fun value => value = answer child ∧ part child) :
    (aggregate.write f).Gives unfolding fun written =>
      written = aggregate.map answer ∧ ∀ child ∈ aggregate.children, part child := by
  cases aggregate with
  | struct structTy => exact (StructType.gives all).bind fun _ known => .pure known
  | enum enumTy => exact (EnumType.gives all).bind fun _ known => .pure known

theorem FunctionType.gives {functionTy : FunctionType α} (all : ∀ child ∈ (Shape.function functionTy).children,
      (f child).Gives unfolding fun value => value = answer child ∧ part child) :
    (functionTy.write f).Gives unfolding fun written => Shape.function written = (Shape.function functionTy).map answer ∧
      ∀ child ∈ (Shape.function functionTy).children, part child := by
  have params := collect_gives fun child member => all child (List.mem_append_left _ member)
  have results := collect_gives fun child member => all child (List.mem_append_right _ member)
  refine params.bind fun written known => results.bind fun answers given => .pure ⟨?_, fun child member => ?_⟩
  · rw [known.1, given.1, Shape.map, FunctionType.map]
  · exact (List.mem_append.mp member).elim (known.2 child) (given.2 child)

theorem Shape.gives {shape : Shape α}
    (all : ∀ child ∈ shape.children, (f child).Gives unfolding fun value => value = answer child ∧ part child) :
    (shape.write f).Gives unfolding fun written =>
      written = shape.map answer ∧ ∀ child ∈ shape.children, part child := by
  have single {child : α} (known : part child) : ∀ other ∈ [child], part other := by simpa using known
  cases shape with
  | scalar kind => exact .pure ⟨rfl, by simp [Shape.children]⟩
  | ptr addrspace pointee =>
    exact (all _ (List.mem_singleton_self _)).bind fun _ known => .pure ⟨by rw [known.1, Shape.map], single known.2⟩
  | array ty len =>
    exact (all _ (List.mem_singleton_self _)).bind fun _ known => .pure ⟨by rw [known.1, Shape.map], single known.2⟩
  | list inner =>
    exact (all _ (List.mem_singleton_self _)).bind fun _ known => .pure ⟨by rw [known.1, Shape.map], single known.2⟩
  | function functionTy => exact (FunctionType.gives all).bind fun _ known => .pure known

end

structure Enclosing (ρ : Type) where
  ref : Option ρ
  name : Option String

def Entered {ρ : Type} (around : List (Enclosing ρ)) (ref : ρ) : Prop :=
  ∃ one ∈ around, one.ref = some ref

structure Frame (ρ : Type) where
  ref : Option ρ
  parts : Aggregate (Ty ρ)
  write : Ty ρ → Json

def Frame.enclosing {ρ : Type} (frame : Frame ρ) : Enclosing ρ :=
  ⟨frame.ref, frame.parts.name⟩

section

variable {ρ : Type} (definition : ρ → Aggregate (Ty ρ))

/-- What JSON stands for a type inside some structs and enums: a reference is its definition in full where none of them
is written for it, and otherwise a `Rec`, which resolves among them. -/
inductive Stands (resolves : List (Enclosing ρ) → ρ → Prop) : List (Frame ρ) → Ty ρ → Json → Prop
  | shape {frames : List (Frame ρ)} {shape : Shape (Ty ρ)} (write : Ty ρ → Json)
      (all : ∀ child ∈ shape.children, Stands resolves frames child (write child)) :
      Stands resolves frames (.shape shape) (shape.map write).json
  | plain {frames : List (Frame ρ)} {parts : Aggregate (Ty ρ)} (write : Ty ρ → Json)
      (all : ∀ child ∈ parts.children, Stands resolves (⟨none, parts, write⟩ :: frames) child (write child)) :
      Stands resolves frames (.plain parts) (parts.map write).json
  | full {frames : List (Frame ρ)} {ref : ρ} (fresh : ¬ Entered (frames.map Frame.enclosing) ref) (write : Ty ρ → Json)
      (all : ∀ child ∈ (definition ref).children,
        Stands resolves (⟨some ref, definition ref, write⟩ :: frames) child (write child)) :
      Stands resolves frames (.recursive ref) ((definition ref).map write).json
  | recurs {frames : List (Frame ρ)} {ref : ρ} (entered : Entered (frames.map Frame.enclosing) ref)
      (found : resolves (frames.map Frame.enclosing) ref) :
      Stands resolves frames (.recursive ref) (recJson (definition ref).name)

inductive Below : List (Enclosing ρ) → Ty ρ → List (Enclosing ρ) → Ty ρ → Prop
  | here {around : List (Enclosing ρ)} {t : Ty ρ} : Below around t around t
  | shape {around inside : List (Enclosing ρ)} {shape : Shape (Ty ρ)} {child t : Ty ρ} (member : child ∈ shape.children)
      (below : Below around child inside t) : Below around (.shape shape) inside t
  | plain {around inside : List (Enclosing ρ)} {parts : Aggregate (Ty ρ)} {child t : Ty ρ}
      (member : child ∈ parts.children) (below : Below (⟨none, parts.name⟩ :: around) child inside t) :
      Below around (.plain parts) inside t
  | full {around inside : List (Enclosing ρ)} {ref : ρ} {child t : Ty ρ} (fresh : ¬ Entered around ref)
      (member : child ∈ (definition ref).children)
      (below : Below (⟨some ref, (definition ref).name⟩ :: around) child inside t) : Below around (.recursive ref) inside t

end

section

variable {ρ : Type} [DecidableEq ρ] (definition : ρ → Aggregate (Ty ρ))

def written (fuel : Nat) (unfolding : List ρ) (t : Ty ρ) : Json :=
  match ty definition fuel t unfolding with
  | some (.ok json, _) => json
  | _ => .null

theorem ty_gives (fuel : Nat) (unfolding : List ρ) (t : Ty ρ) : (ty definition fuel t).Gives unfolding fun json =>
    json = written definition fuel unfolding t ∧
      ty definition fuel t unfolding = some (.ok (written definition fuel unfolding t), unfolding) := by
  intro json after same
  obtain rfl := ty_restores definition fuel t _ _ _ same
  have answer : written definition fuel after t = json := by rw [written, same]
  exact ⟨rfl, answer.symm, by rw [answer]; exact same⟩

theorem shape_gives (fuel : Nat) (unfolding : List ρ) (shape : Shape (Ty ρ)) :
    (ty definition (fuel + 1) (.shape shape)).Gives unfolding fun json =>
      json = (shape.map (written definition fuel unfolding)).json ∧ ∀ child ∈ shape.children,
        ty definition fuel child unfolding = some (.ok (written definition fuel unfolding child), unfolding) := by
  have parts := Shape.gives fun child (_ : child ∈ shape.children) => ty_gives definition fuel unfolding child
  exact parts.bind fun _ known => .pure ⟨by rw [known.1], known.2⟩

theorem aggregate_gives (fuel : Nat) (unfolding : List ρ) (parts : Aggregate (Ty ρ)) :
    (aggregate (ty definition fuel) parts).Gives unfolding fun json =>
      json = (parts.map (written definition fuel unfolding)).json ∧ ∀ child ∈ parts.children,
        ty definition fuel child unfolding = some (.ok (written definition fuel unfolding child), unfolding) := by
  have inner := Aggregate.gives fun child (_ : child ∈ parts.children) => ty_gives definition fuel unfolding child
  exact inner.bind fun _ known => .pure ⟨by rw [known.1], known.2⟩

omit [DecidableEq ρ] in
theorem matched_cons {unfolding : List ρ} {frames : List (Frame ρ)} {frame : Frame ρ} {ref : ρ}
    (matched : ∀ one, one ∈ unfolding ↔ Entered (frames.map Frame.enclosing) one) (same : frame.ref = some ref) (one : ρ) :
    one ∈ unfolding ++ [ref] ↔ Entered ((frame :: frames).map Frame.enclosing) one := by
  rw [List.mem_append, List.mem_singleton, matched]
  have head : frame.enclosing.ref = some ref := same
  constructor
  · rintro (⟨enclosing, member, known⟩ | rfl)
    · exact ⟨enclosing, List.mem_cons_of_mem _ member, known⟩
    · exact ⟨frame.enclosing, List.mem_cons_self .., head⟩
  · rintro ⟨enclosing, member, known⟩
    rcases List.mem_cons.mp member with rfl | inside
    · rw [head] at known
      exact .inr (Option.some.inj known).symm
    · exact .inl ⟨enclosing, inside, known⟩

theorem stands_of_ty {resolves : List (Enclosing ρ) → ρ → Prop} {fuel : Nat} {t : Ty ρ} {unfolding after : List ρ}
    {frames : List (Frame ρ)} {json : Json} (matched : ∀ ref, ref ∈ unfolding ↔ Entered (frames.map Frame.enclosing) ref)
    (found : ∀ inside ref, Below definition (frames.map Frame.enclosing) t inside (.recursive ref) →
      Entered inside ref → resolves inside ref) (same : ty definition fuel t unfolding = some (.ok json, after)) :
    Stands definition resolves frames t json := by
  induction fuel generalizing t unfolding after frames json with
  | zero => cases same
  | succ fuel ih =>
    cases t with
    | shape shape =>
      obtain ⟨-, rfl, all⟩ := shape_gives definition fuel unfolding shape json after same
      exact .shape _ fun child member => ih matched (fun inside ref below => found inside ref (.shape member below))
        (all child member)
    | plain parts =>
      obtain ⟨-, rfl, all⟩ := aggregate_gives definition fuel unfolding parts json after same
      refine .plain _ fun child member => ih ?_ (fun inside ref below => found inside ref (.plain member below))
        (all child member)
      intro ref
      simp [matched, Entered, Frame.enclosing]
    | recursive ref =>
      simp only [ty] at same
      split at same
      next inside =>
        obtain rfl := Except.ok.inj (Prod.mk.inj (Option.some.inj same)).1
        have entered := (matched ref).mp inside
        exact .recurs entered (found _ ref .here entered)
      next outside =>
        have fresh : ¬ Entered (frames.map Frame.enclosing) ref := fun entered => outside ((matched ref).mpr entered)
        split at same
        next => cases same
        next value between answered =>
          obtain ⟨rfl, -⟩ := Prod.mk.inj (Option.some.inj same)
          obtain ⟨-, rfl, all⟩ := aggregate_gives definition fuel _ (definition ref) json between answered
          exact .full fresh _ fun child member => ih (matched_cons matched rfl)
            (fun inside ref below => found inside ref (.full fresh member below)) (all child member)

theorem ty_terminates {refs : Finset ρ} (closed : Closed definition refs) {t : Ty ρ}
    (known : ∀ ref, Mentions t ref → ref ∈ refs) :
    (∀ unfolding, ∃ fuel result, ∀ more, fuel ≤ more → ty definition more t unfolding = some (result, unfolding)) ∧
    (∀ fuel unfolding result after, ty definition fuel t unfolding = some (result, after) → after = unfolding) ∧
    ∀ fuel json after, ty definition fuel t [] = some (.ok json, after) → Stands definition Entered [] t json := by
  refine ⟨fun unfolding => ?_, fun fuel => ty_restores definition fuel t, fun fuel json after same => ?_⟩
  · obtain ⟨fuel, result, settled⟩ := ty_settles definition closed known unfolding
    exact ⟨fuel, result, fun more enough => ty_more definition enough t _ _ settled⟩
  · exact stands_of_ty definition (by simp [Entered]) (fun _ _ _ entered => entered) same

theorem signature_written {refs : Finset ρ} (closed : Closed definition refs) {functionTy : FunctionType (Ty ρ)}
    (known : ∀ child ∈ functionTy.params ++ functionTy.results, ∀ ref, Mentions child ref → ref ∈ refs)
    (text : ExportText) (procedure : ProcedureExport) : ∃ fuel params results,
      collect (ty definition fuel) functionTy.params [] = some (params, []) ∧
      collect (ty definition fuel) functionTy.results [] = some (results, []) ∧
      (functionTy.write (ty definition fuel)).bind (fun written => Write.pure written.json) [] =
        some (function { text with params := fun _ => params, results := fun _ => results } procedure functionTy.abi, []) := by
  obtain ⟨fuel, all⟩ := settle_all definition fun child member =>
    ty_settles definition closed (known child member) []
  obtain ⟨params, first⟩ := (Write.settles []).collect (g := ty definition fuel) fun child member =>
    all child (List.mem_append_left _ member)
  obtain ⟨results, second⟩ := (Write.settles []).collect (g := ty definition fuel) fun child member =>
    all child (List.mem_append_right _ member)
  refine ⟨fuel, params, results, first, second, ?_⟩
  have written (found : FunctionType (Ty ρ)) : found.write (ty definition fuel) =
      (collect (ty definition fuel) found.params).bind fun params =>
        (collect (ty definition fuel) found.results).bind fun results => Write.pure ⟨found.abi, params, results⟩ := rfl
  rw [written, Write.bind, Write.bind, first]
  cases params with
  | error message => rfl
  | ok params =>
    simp only [Write.bind, second]
    cases results with
    | error message => rfl
    | ok results => rfl

end

-- A struct `Node` that points to the next one.
def node {ρ : Type} (next : ρ) : Aggregate (Ty ρ) :=
  .struct ⟨some "Node", .default, 4, [⟨some "next", 0, 4, 0, .shape (.ptr .byte (.recursive next))⟩]⟩

def numberedNode {ρ : Type} (next : ρ) : Aggregate (Ty ρ) :=
  .struct ⟨some "Node", .default, 8, [
    ⟨some "next", 0, 4, 0, .shape (.ptr .byte (.recursive next))⟩,
    ⟨some "number", 1, 4, 4, .shape (.scalar .u32)⟩]⟩

def mutualNodes : Bool → Aggregate (Ty Bool)
  | true => numberedNode false
  | false => node true

theorem ty_terminates_mutualNodes : ∃ fuel result, ∀ more, fuel ≤ more →
    ty mutualNodes more (.recursive true) [] = some (result, []) := by
  have closed : Closed mutualNodes Finset.univ := fun _ _ _ _ _ _ => Finset.mem_univ _
  exact (ty_terminates mutualNodes closed fun _ _ => Finset.mem_univ _).1 []

end SourceVerification.Compile.Types
