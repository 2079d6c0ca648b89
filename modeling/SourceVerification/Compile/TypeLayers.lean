import SourceVerification.Compile.PackageMetadata

set_option autoImplicit false

namespace SourceVerification.Compile.Types

inductive Scalar
  | unknown
  | never
  | variadic
  | i1
  | i8
  | u8
  | i16
  | u16
  | i32
  | u32
  | i64
  | u64
  | i128
  | u128
  | u256
  | f64
  | felt
deriving DecidableEq

inductive AddressSpace
  | byte
  | element
deriving DecidableEq

inductive TypeRepr
  | default
  | align (align : Nat)
  | packed (align : Nat)
  | transparent
deriving DecidableEq

structure Field (τ : Type) where
  name : Option String
  index : Nat
  align : Nat
  offset : Nat
  ty : τ
deriving DecidableEq

structure StructType (τ : Type) where
  name : Option String
  repr : TypeRepr
  size : Nat
  fields : List (Field τ)
deriving DecidableEq

structure Variant (τ : Type) where
  name : String
  -- A `u128`.
  discriminantValue : Option Nat
  value : Option τ
deriving DecidableEq

structure EnumType (τ : Type) where
  name : String
  discriminant : τ
  variants : List (Variant τ)
  variantOffsets : List Nat
  sizeInBytes : Nat
  minAlignment : Nat
deriving DecidableEq

structure FunctionType (τ : Type) where
  abi : CallConv
  params : List τ
  results : List τ
deriving DecidableEq

inductive Aggregate (τ : Type)
  | struct (struct : StructType τ)
  | enum (enum : EnumType τ)
deriving DecidableEq

inductive Shape (τ : Type)
  | scalar (scalar : Scalar)
  | ptr (addrspace : AddressSpace) (pointee : τ)
  | array (ty : τ) (len : Nat)
  | list (element : τ)
  | function (function : FunctionType τ)
deriving DecidableEq

inductive Ty (ρ : Type)
  | shape (shape : Shape (Ty ρ))
  | plain (aggregate : Aggregate (Ty ρ))
  | recursive (ref : ρ)

def Aggregate.name {τ : Type} : Aggregate τ → Option String
  | .struct structTy => structTy.name
  | .enum enumTy => some enumTy.name

section

variable {α β γ : Type}

def Field.map (f : α → β) (field : Field α) : Field β :=
  ⟨field.name, field.index, field.align, field.offset, f field.ty⟩

def Variant.map (f : α → β) (variant : Variant α) : Variant β :=
  ⟨variant.name, variant.discriminantValue, variant.value.map f⟩

def Aggregate.map (f : α → β) : Aggregate α → Aggregate β
  | .struct structTy => .struct ⟨structTy.name, structTy.repr, structTy.size, structTy.fields.map (Field.map f)⟩
  | .enum enumTy => .enum ⟨enumTy.name, f enumTy.discriminant, enumTy.variants.map (Variant.map f), enumTy.variantOffsets,
      enumTy.sizeInBytes, enumTy.minAlignment⟩

def FunctionType.map (f : α → β) (functionTy : FunctionType α) : FunctionType β :=
  ⟨functionTy.abi, functionTy.params.map f, functionTy.results.map f⟩

def Shape.map (f : α → β) : Shape α → Shape β
  | .scalar kind => .scalar kind
  | .ptr addrspace pointee => .ptr addrspace (f pointee)
  | .array ty len => .array (f ty) len
  | .list inner => .list (f inner)
  | .function functionTy => .function (functionTy.map f)

def Aggregate.children : Aggregate α → List α
  | .struct structTy => structTy.fields.map Field.ty
  | .enum enumTy => enumTy.variants.filterMap Variant.value ++ [enumTy.discriminant]

def Shape.children : Shape α → List α
  | .scalar _ => []
  | .ptr _ pointee => [pointee]
  | .array ty _ => [ty]
  | .list inner => [inner]
  | .function functionTy => functionTy.params ++ functionTy.results

@[simp] theorem Aggregate.name_map (f : α → β) (aggregate : Aggregate α) : (aggregate.map f).name = aggregate.name := by
  cases aggregate <;> rfl

theorem Field.map_congr {f g : α → β} {field : Field α} (same : f field.ty = g field.ty) :
    field.map f = field.map g := by
  rw [Field.map, Field.map, same]

theorem Variant.map_congr {f g : α → β} {variant : Variant α} (same : ∀ value ∈ variant.value, f value = g value) :
    variant.map f = variant.map g := by
  rw [Variant.map, Variant.map, Option.map_congr same]

theorem Aggregate.map_congr {f g : α → β} {aggregate : Aggregate α}
    (same : ∀ child ∈ aggregate.children, f child = g child) : aggregate.map f = aggregate.map g := by
  cases aggregate with
  | struct structTy =>
    have fields : structTy.fields.map (Field.map f) = structTy.fields.map (Field.map g) :=
      List.map_congr_left fun field member => Field.map_congr (same _ (List.mem_map_of_mem member))
    simp only [Aggregate.map, fields]
  | enum enumTy =>
    have variants : enumTy.variants.map (Variant.map f) = enumTy.variants.map (Variant.map g) :=
      List.map_congr_left fun variant member => Variant.map_congr fun value present =>
        same _ (List.mem_append_left _ (List.mem_filterMap.mpr ⟨variant, member, present⟩))
    have discriminant : f enumTy.discriminant = g enumTy.discriminant :=
      same _ (List.mem_append_right _ (List.mem_singleton_self _))
    simp only [Aggregate.map, variants, discriminant]

theorem Shape.map_congr {f g : α → β} {shape : Shape α} (same : ∀ child ∈ shape.children, f child = g child) :
    shape.map f = shape.map g := by
  cases shape with
  | scalar kind => rfl
  | ptr addrspace pointee => exact congrArg (Shape.ptr addrspace) (same _ (List.mem_singleton_self _))
  | array ty len => exact congrArg (Shape.array · len) (same _ (List.mem_singleton_self _))
  | list inner => exact congrArg Shape.list (same _ (List.mem_singleton_self _))
  | function functionTy =>
    have params : functionTy.params.map f = functionTy.params.map g :=
      List.map_congr_left fun child member => same child (List.mem_append_left _ member)
    have results : functionTy.results.map f = functionTy.results.map g :=
      List.map_congr_left fun child member => same child (List.mem_append_right _ member)
    simp only [Shape.map, FunctionType.map, params, results]

theorem Variant.map_map (g : β → γ) (f : α → β) (variant : Variant α) :
    (variant.map f).map g = variant.map (g ∘ f) := by
  simp only [Variant.map, Option.map_map]

theorem Aggregate.map_map (g : β → γ) (f : α → β) (aggregate : Aggregate α) :
    (aggregate.map f).map g = aggregate.map (g ∘ f) := by
  cases aggregate with
  | struct structTy =>
    simp only [Aggregate.map, List.map_map]
    rfl
  | enum enumTy =>
    have variants : enumTy.variants.map (Variant.map g ∘ Variant.map f) = enumTy.variants.map (Variant.map (g ∘ f)) :=
      List.map_congr_left fun variant _ => variant.map_map g f
    simp only [Aggregate.map, List.map_map, variants, Function.comp_apply]

theorem Shape.map_map (g : β → γ) (f : α → β) (shape : Shape α) : (shape.map f).map g = shape.map (g ∘ f) := by
  cases shape with
  | function functionTy => simp only [Shape.map, FunctionType.map, List.map_map]
  | _ => rfl

end

def nameJson : Option String → Json
  | some name => .string name
  | none => .null

def Scalar.text : Scalar → String
  | .unknown => "Unknown"
  | .never => "Never"
  | .variadic => "Variadic"
  | .i1 => "I1"
  | .i8 => "I8"
  | .u8 => "U8"
  | .i16 => "I16"
  | .u16 => "U16"
  | .i32 => "I32"
  | .u32 => "U32"
  | .i64 => "I64"
  | .u64 => "U64"
  | .i128 => "I128"
  | .u128 => "U128"
  | .u256 => "U256"
  | .f64 => "F64"
  | .felt => "Felt"

def AddressSpace.text : AddressSpace → String
  | .byte => "Byte"
  | .element => "Element"

def TypeRepr.json : TypeRepr → Json
  | .default => .string "Default"
  | .align bytes => .object [("Align", .number bytes)]
  | .packed bytes => .object [("Packed", .number bytes)]
  | .transparent => .string "Transparent"

def Field.json (field : Field Json) : Json :=
  .object [
    ("name", nameJson field.name),
    ("index", .number field.index),
    ("align", .number field.align),
    ("offset", .number field.offset),
    ("ty", field.ty)]

def Variant.json (variant : Variant Json) : Json :=
  .object [
    ("name", .string variant.name),
    ("discriminant_value", numberOrNull (variant.discriminantValue)),
    ("value", variant.value.getD .null)]

def Aggregate.json : Aggregate Json → Json
  | .struct structTy => .object [("Struct", .object [
      ("name", nameJson structTy.name),
      ("repr", structTy.repr.json),
      ("size", .number structTy.size),
      ("fields", .array (structTy.fields.map Field.json))])]
  | .enum enumTy => .object [("Enum", .object [
      ("name", .string enumTy.name),
      ("discriminant", enumTy.discriminant),
      ("variants", .array (enumTy.variants.map Variant.json)),
      ("offsets", .array (enumTy.variantOffsets.map fun (offset : Nat) => Json.number offset)),
      ("size", .number enumTy.sizeInBytes),
      ("align", .number enumTy.minAlignment)])]

def FunctionType.json (functionTy : FunctionType Json) : Json :=
  .object [("abi", abiJson functionTy.abi), ("params", .array functionTy.params), ("results", .array functionTy.results)]

def Shape.json : Shape Json → Json
  | .scalar kind => .string kind.text
  | .ptr addrspace pointee => .object [("Ptr", .object [("addrspace", .string addrspace.text), ("pointee", pointee)])]
  | .array ty len => .object [("Array", .object [("ty", ty), ("len", .number len)])]
  | .list inner => .object [("List", inner)]
  | .function functionTy => .object [("Function", functionTy.json)]

def recJson (name : Option String) : Json :=
  .object [("Rec", nameJson name)]

end SourceVerification.Compile.Types
