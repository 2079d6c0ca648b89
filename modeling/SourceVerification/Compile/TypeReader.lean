import SourceVerification.Compile.TypeWriter

set_option autoImplicit false

namespace SourceVerification.Compile.Types

inductive Layer
  | shape (shape : Shape Json)
  | aggregate (parts : Aggregate Json)
  | recurs (name : Option String)

def readName : Json → Option (Option String)
  | .null => some none
  | .string name => some (some name)
  | _ => none

def readNumber : Json → Option Nat
  | .number (.ofNat value) => some value
  | _ => none

def readNumberOrNull : Json → Option (Option Nat)
  | .null => some none
  | json => (readNumber json).map some

def scalars : List Scalar :=
  [.unknown, .never, .variadic, .i1, .i8, .u8, .i16, .u16, .i32, .u32, .i64, .u64, .i128, .u128, .u256, .f64, .felt]

def readRepr : Json → Option TypeRepr
  | .string "Default" => some .default
  | .string "Transparent" => some .transparent
  | .object [("Align", bytes)] => (readNumber bytes).map .align
  | .object [("Packed", bytes)] => (readNumber bytes).map .packed
  | _ => none

def readField : Json → Option (Field Json)
  | .object [("name", name), ("index", index), ("align", align), ("offset", offset), ("ty", ty)] => do
    let name ← readName name
    let index ← readNumber index
    let align ← readNumber align
    let offset ← readNumber offset
    some ⟨name, index, align, offset, ty⟩
  | _ => none

def readValue : Json → Option Json
  | .null => none
  | json => some json

def readVariant : Json → Option (Variant Json)
  | .object [("name", .string name), ("discriminant_value", discriminantValue), ("value", value)] =>
    (readNumberOrNull discriminantValue).map fun discriminantValue => ⟨name, discriminantValue, readValue value⟩
  | _ => none

def readAggregate : Json → Option (Aggregate Json)
  | .object [("Struct", .object [("name", name), ("repr", repr), ("size", size), ("fields", .array fields)])] => do
    let name ← readName name
    let repr ← readRepr repr
    let size ← readNumber size
    let fields ← fields.mapM readField
    some (.struct ⟨name, repr, size, fields⟩)
  | .object [("Enum", .object [("name", .string name), ("discriminant", discriminant), ("variants", .array variants),
      ("offsets", .array offsets), ("size", size), ("align", align)])] => do
    let variants ← variants.mapM readVariant
    let offsets ← offsets.mapM readNumber
    let size ← readNumber size
    let align ← readNumber align
    some (.enum ⟨name, discriminant, variants, offsets, size, align⟩)
  | _ => none

def readAbi : Json → Option CallConv
  | .number 0 => some .fast
  | .number 1 => some .c
  | .number 2 => some .wasm
  | .number 3 => some .componentModel
  | .object [("Extern", .string name)] => some (.externConv name)
  | _ => none

def readAddressSpace : String → Option AddressSpace
  | "Byte" => some .byte
  | "Element" => some .element
  | _ => none

def readLayer : Json → Option Layer
  | .string text => (scalars.find? (·.text = text)).map fun kind => .shape (.scalar kind)
  | .object [("Ptr", .object [("addrspace", .string addrspace), ("pointee", pointee)])] =>
    (readAddressSpace addrspace).map fun addrspace => .shape (.ptr addrspace pointee)
  | .object [("Array", .object [("ty", ty), ("len", len)])] => (readNumber len).map fun len => .shape (.array ty len)
  | .object [("List", inner)] => some (.shape (.list inner))
  | .object [("Function", .object [("abi", abi), ("params", .array params), ("results", .array results)])] =>
    (readAbi abi).map fun abi => .shape (.function ⟨abi, params, results⟩)
  | .object [("Rec", name)] => (readName name).map .recurs
  | json => (readAggregate json).map .aggregate

theorem readName_json (name : Option String) : readName (nameJson name) = some name := by
  cases name <;> rfl

theorem readNumberOrNull_json (value : Option Nat) : readNumberOrNull (numberOrNull value) = some value := by
  cases value <;> rfl

theorem readRepr_json (repr : TypeRepr) : readRepr repr.json = some repr := by
  cases repr <;> rfl

theorem mapM_map {α β : Type} {read : β → Option α} {write : α → β} {items : List α}
    (back : ∀ item ∈ items, read (write item) = some item) : (items.map write).mapM read = some items := by
  induction items with
  | nil => rfl
  | cons item rest ih =>
    rw [List.map_cons, List.mapM_cons, back item (List.mem_cons_self ..),
      ih fun other member => back other (List.mem_cons_of_mem _ member)]
    rfl

theorem readField_json (field : Field Json) : readField field.json = some field := by
  rw [Field.json, readField, readName_json]
  rfl

theorem readVariant_json {variant : Variant Json} (present : variant.value ≠ some .null) :
    readVariant variant.json = some variant := by
  obtain ⟨name, discriminantValue, value⟩ := variant
  have same : readValue (value.getD .null) = value := by
    cases value with
    | none => rfl
    | some json =>
      cases json with
      | null => exact absurd rfl present
      | _ => rfl
  rw [Variant.json, readVariant, readNumberOrNull_json]
  dsimp only
  rw [same]
  rfl

theorem readAggregate_json {parts : Aggregate Json} (present : ∀ child ∈ parts.children, child ≠ .null) :
    readAggregate parts.json = some parts := by
  cases parts with
  | struct structTy =>
    rw [Aggregate.json, readAggregate, readName_json, readRepr_json, mapM_map fun field _ => readField_json field]
    rfl
  | enum enumTy =>
    have variants : ∀ variant ∈ enumTy.variants, readVariant variant.json = some variant := by
      intro variant member
      refine readVariant_json fun null => present .null ?_ rfl
      exact List.mem_append_left _ (List.mem_filterMap.mpr ⟨variant, member, null⟩)
    have offsets : (enumTy.variantOffsets.map fun (offset : Nat) => Json.number offset).mapM readNumber =
        some enumTy.variantOffsets := mapM_map fun offset _ => rfl
    rw [Aggregate.json, readAggregate, mapM_map variants, offsets]
    rfl

theorem readLayer_aggregate {parts : Aggregate Json} (present : ∀ child ∈ parts.children, child ≠ .null) :
    readLayer parts.json = some (.aggregate parts) := by
  have read : readLayer parts.json = (readAggregate parts.json).map .aggregate := by
    cases parts <;> rfl
  rw [read, readAggregate_json present]
  rfl

theorem readLayer_shape (shape : Shape Json) : readLayer shape.json = some (.shape shape) := by
  cases shape with
  | scalar kind => cases kind <;> rfl
  | ptr addrspace pointee => cases addrspace <;> rfl
  | array ty len => rfl
  | list inner => rfl
  | function functionTy =>
    obtain ⟨abi, params, results⟩ := functionTy
    cases abi <;> rfl

theorem readLayer_rec (name : Option String) : readLayer (recJson name) = some (.recurs name) := by
  cases name <;> rfl

def Cut : Nat → Type
  | 0 => Unit
  | depth + 1 => Option (Shape (Cut depth) ⊕ Aggregate (Cut depth))

def unfoldTo {ρ : Type} (definition : ρ → Aggregate (Ty ρ)) : (depth : Nat) → Ty ρ → Cut depth
  | 0, _ => ()
  | depth + 1, .shape shape => some (.inl (shape.map (unfoldTo definition depth)))
  | depth + 1, .plain parts => some (.inr (parts.map (unfoldTo definition depth)))
  | depth + 1, .recursive ref => some (.inr ((definition ref).map (unfoldTo definition depth)))

def readTo : (depth : Nat) → List (Aggregate Json) → Json → Cut depth
  | 0, _, _ => ()
  | depth + 1, around, json =>
    match readLayer json with
    | some (.shape shape) => some (.inl (shape.map (readTo depth around)))
    | some (.aggregate parts) => some (.inr (parts.map (readTo depth (parts :: around))))
    | some (.recurs name) =>
      match around.dropWhile fun one => one.name ≠ name with
      | found :: outer => some (.inr (found.map (readTo depth (found :: outer))))
      | [] => none
    | none => none

theorem Aggregate.children_map {α β : Type} (f : α → β) (parts : Aggregate α) :
    (parts.map f).children = parts.children.map f := by
  cases parts with
  | struct structTy =>
    simp only [Aggregate.map, Aggregate.children, List.map_map]
    rfl
  | enum enumTy =>
    have values : enumTy.variants.filterMap (Variant.value ∘ Variant.map f) =
        (enumTy.variants.filterMap Variant.value).map f := by
      rw [List.map_filterMap]
      rfl
    simp only [Aggregate.map, Aggregate.children, List.filterMap_map, values, List.map_append, List.map_cons, List.map_nil]

def Frame.json {ρ : Type} (frame : Frame ρ) : Aggregate Json :=
  frame.parts.map frame.write

section

variable {ρ : Type} (definition : ρ → Aggregate (Ty ρ))

/-- The nearest struct or enum of a reference's name is written for that reference. -/
def Nearest (around : List (Enclosing ρ)) (ref : ρ) : Prop :=
  (around.find? fun one => one.name = (definition ref).name).bind Enclosing.ref = some ref

/-- On the way down to a reference from its definition, no struct or enum has the definition's name. -/
def Unshadowed (t : Ty ρ) : Prop :=
  ∀ inside ref, Below definition [] t inside (.recursive ref) →
    ∀ near one far, inside = near ++ one :: far → one.ref = some ref →
      ∀ other ∈ near, other.name ≠ (definition ref).name

structure Valid (frames : List (Frame ρ)) : Prop where
  stands : ∀ frame outer, frame :: outer <:+ frames → ∀ child ∈ frame.parts.children,
    Stands definition (Nearest definition) (frame :: outer) child (frame.write child)
  definitions : ∀ frame ∈ frames, ∀ ref, frame.ref = some ref → frame.parts = definition ref

variable {definition}

theorem Valid.cons {frames : List (Frame ρ)} {frame : Frame ρ} (valid : Valid definition frames)
    (stands : ∀ child ∈ frame.parts.children,
      Stands definition (Nearest definition) (frame :: frames) child (frame.write child))
    (unfolds : ∀ ref, frame.ref = some ref → frame.parts = definition ref) : Valid definition (frame :: frames) where
  stands one outer above := by
    rcases List.suffix_cons_iff.mp above with same | inside
    · obtain ⟨rfl, rfl⟩ := List.cons.inj same
      exact stands
    · exact valid.stands one outer inside
  definitions := List.forall_mem_cons.mpr ⟨unfolds, valid.definitions⟩

theorem Valid.suffix {frames outer : List (Frame ρ)} (valid : Valid definition frames) (above : outer <:+ frames) :
    Valid definition outer where
  stands frame others inside := valid.stands frame others (inside.trans above)
  definitions frame member := valid.definitions frame (above.subset member)

theorem stands_ne_null {resolves : List (Enclosing ρ) → ρ → Prop} {frames : List (Frame ρ)} {t : Ty ρ} {json : Json}
    (stands : Stands definition resolves frames t json) : json ≠ .null := by
  have aggregates : ∀ parts : Aggregate Json, parts.json ≠ .null := by
    intro parts
    cases parts <;> simp [Aggregate.json]
  cases stands with
  | @shape _ shape write _ => cases shape <;> simp [Shape.map, Shape.json]
  | plain write _ => exact aggregates _
  | full _ write _ => exact aggregates _
  | recurs _ _ => simp [recJson]

theorem readLayer_map {resolves : List (Enclosing ρ) → ρ → Prop} {frames : List (Frame ρ)} {parts : Aggregate (Ty ρ)}
    {write : Ty ρ → Json} (all : ∀ child ∈ parts.children, Stands definition resolves frames child (write child)) :
    readLayer (parts.map write).json = some (.aggregate (parts.map write)) := by
  refine readLayer_aggregate fun json member => ?_
  rw [Aggregate.children_map] at member
  obtain ⟨child, inside, rfl⟩ := List.mem_map.mp member
  exact stands_ne_null (all child inside)

theorem dropWhile_frames (frames : List (Frame ρ)) (name : Option String) :
    (frames.map Frame.json).dropWhile (fun one => one.name ≠ name) =
      (frames.dropWhile fun frame => frame.enclosing.name ≠ name).map Frame.json := by
  have same : ∀ frame : Frame ρ, frame.json.name = frame.enclosing.name :=
    fun frame => Aggregate.name_map frame.write frame.parts
  induction frames with
  | nil => rfl
  | cons frame outer ih => simp only [List.map_cons, List.dropWhile_cons, same, ih, apply_ite (List.map Frame.json)]

theorem find_frames {frames : List (Frame ρ)} {ref : ρ}
    (nearest : Nearest definition (frames.map Frame.enclosing) ref) : ∃ frame outer,
      (frames.dropWhile fun frame => frame.enclosing.name ≠ (definition ref).name) = frame :: outer ∧
        frame.ref = some ref := by
  induction frames with
  | nil => cases nearest
  | cons frame outer ih =>
    rw [Nearest, List.map_cons, List.find?_cons] at nearest
    by_cases here : frame.enclosing.name = (definition ref).name
    next =>
      simp only [here, decide_true] at nearest
      exact ⟨frame, outer, by simp [here], nearest⟩
    next =>
      simp only [here, decide_false] at nearest
      obtain ⟨found, above, dropped, written⟩ := ih nearest
      exact ⟨found, above, by rw [List.dropWhile_cons_of_pos (by simp [here]), dropped], written⟩

theorem readTo_of_stands (depth : Nat) {frames : List (Frame ρ)} {t : Ty ρ} {json : Json} (valid : Valid definition frames)
    (stands : Stands definition (Nearest definition) frames t json) :
    readTo depth (frames.map Frame.json) json = unfoldTo definition depth t := by
  induction depth generalizing frames t json with
  | zero => rfl
  | succ depth ih =>
    cases stands with
    | @shape _ shape write all =>
      have layers : (shape.map write).map (readTo depth (frames.map Frame.json)) = shape.map (unfoldTo definition depth) := by
        rw [Shape.map_map]
        exact Shape.map_congr fun child member => ih valid (all child member)
      rw [readTo, readLayer_shape]
      exact congrArg (fun shape => some (Sum.inl shape)) layers
    | @plain _ parts write all =>
      have inner : Valid definition (⟨none, parts, write⟩ :: frames) := valid.cons all (by simp)
      have layers : (parts.map write).map (readTo depth (parts.map write :: frames.map Frame.json)) =
          parts.map (unfoldTo definition depth) := by
        rw [Aggregate.map_map]
        exact Aggregate.map_congr fun child member => ih inner (all child member)
      rw [readTo, readLayer_map all]
      exact congrArg (fun parts => some (Sum.inr parts)) layers
    | @full _ ref fresh write all =>
      have inner : Valid definition (⟨some ref, definition ref, write⟩ :: frames) :=
        valid.cons all fun other same => by rw [Option.some.inj same]
      have layers : ((definition ref).map write).map (readTo depth ((definition ref).map write :: frames.map Frame.json)) =
          (definition ref).map (unfoldTo definition depth) := by
        rw [Aggregate.map_map]
        exact Aggregate.map_congr fun child member => ih inner (all child member)
      rw [readTo, readLayer_map all]
      exact congrArg (fun parts => some (Sum.inr parts)) layers
    | @recurs _ ref entered found =>
      obtain ⟨frame, outer, dropped, written⟩ := find_frames found
      have above : frame :: outer <:+ frames := dropped ▸ List.dropWhile_suffix _
      have inner := valid.suffix above
      have unfolds : frame.parts = definition ref := inner.definitions frame (List.mem_cons_self ..) ref written
      have layers : frame.json.map (readTo depth (frame.json :: outer.map Frame.json)) =
          (definition ref).map (unfoldTo definition depth) := by
        rw [Frame.json, Aggregate.map_map, ← unfolds]
        exact Aggregate.map_congr fun child member => ih inner (valid.stands frame outer above child member)
      rw [readTo, readLayer_rec]
      simp only [dropWhile_frames, dropped, List.map_cons]
      exact congrArg (fun parts => some (Sum.inr parts)) layers

theorem below_names {around inside : List (Enclosing ρ)} {t u : Ty ρ} (below : Below definition around t inside u)
    (names : ∀ one ∈ around, ∀ ref, one.ref = some ref → one.name = (definition ref).name) :
    ∀ one ∈ inside, ∀ ref, one.ref = some ref → one.name = (definition ref).name := by
  induction below with
  | here => exact names
  | shape _ _ ih => exact ih names
  | plain _ _ ih => exact ih (List.forall_mem_cons.mpr ⟨by simp, names⟩)
  | full _ _ _ ih => exact ih (List.forall_mem_cons.mpr ⟨fun other same => by rw [Option.some.inj same], names⟩)

theorem nearest_of_unshadowed {t : Ty ρ} (unshadowed : Unshadowed definition t) {inside : List (Enclosing ρ)} {ref : ρ}
    (below : Below definition [] t inside (.recursive ref)) (entered : Entered inside ref) :
    Nearest definition inside ref := by
  obtain ⟨one, member, written⟩ := entered
  have named := below_names below (by simp) one member ref written
  obtain ⟨near, far, rfl⟩ := List.append_of_mem member
  have others := unshadowed _ ref below near one far rfl written
  have nothing : (near.find? fun one => one.name = (definition ref).name) = none := by
    simpa [List.find?_eq_none] using others
  rw [Nearest, List.find?_append, nothing, Option.none_or, List.find?_cons_of_pos (by simpa using named)]
  exact written

def EnteredOnce (around : List (Enclosing ρ)) : Prop :=
  (around.filterMap Enclosing.ref).Nodup

theorem entered_iff {around : List (Enclosing ρ)} {ref : ρ} :
    Entered around ref ↔ ref ∈ around.filterMap Enclosing.ref := by
  rw [Entered, List.mem_filterMap]

theorem names_of_stands {around inside : List (Enclosing ρ)} {t u : Ty ρ} (below : Below definition around t inside u)
    {ref : ρ} (reference : u = .recursive ref) (frames : List (Frame ρ)) (same : frames.map Frame.enclosing = around)
    (once : EnteredOnce around) {json : Json} (stands : Stands definition (Nearest definition) frames t json) :
    ∀ near one far, inside = near ++ one :: far → one.ref = some ref →
      ∀ other ∈ near, other.name ≠ (definition ref).name := by
  induction below generalizing frames json with
  | here =>
    subst reference
    subst same
    intro near one far split written other member named
    cases stands with
    | full fresh write all =>
      refine absurd ⟨one, ?_, written⟩ fresh
      rw [split]
      exact List.mem_append_right _ (List.mem_cons_self ..)
    | recurs entered found =>
      rw [split] at found once
      obtain ⟨nearest, nearer⟩ : ∃ nearest, (near.find? fun one => one.name = (definition ref).name) = some nearest :=
        Option.ne_none_iff_exists'.mp fun none => List.find?_eq_none.mp none other member (decide_eq_true named)
      rw [Nearest, List.find?_append, nearer, Option.some_or] at found
      have twice : ref ∈ near.filterMap Enclosing.ref := List.mem_filterMap.mpr ⟨nearest, List.mem_of_find?_eq_some nearer, found⟩
      have below : ref ∈ (one :: far).filterMap Enclosing.ref :=
        List.mem_filterMap.mpr ⟨one, List.mem_cons_self .., written⟩
      rw [EnteredOnce, List.filterMap_append] at once
      exact List.disjoint_of_nodup_append once twice below
  | shape member below ih =>
    cases stands with
    | shape write all => exact ih reference frames same once (all _ member)
  | plain member below ih =>
    cases stands with
    | plain write all => exact ih reference _ (by rw [List.map_cons, same]; rfl) once (all _ member)
  | full fresh member below ih =>
    cases stands with
    | full _ write all =>
      refine ih reference _ (by rw [List.map_cons, same]; rfl) ?_ (all _ member)
      exact List.nodup_cons.mpr ⟨fun entered => fresh (entered_iff.mpr entered), once⟩
    | recurs entered found => exact absurd (same ▸ entered) fresh

variable [DecidableEq ρ]

theorem stands_of_unshadowed {fuel : Nat} {t : Ty ρ} {json : Json} {after : List ρ}
    (written : ty definition fuel t [] = some (.ok json, after)) (unshadowed : Unshadowed definition t) :
    Stands definition (Nearest definition) [] t json :=
  stands_of_ty definition (by simp [Entered]) (fun _ _ below entered => nearest_of_unshadowed unshadowed below entered)
    written

theorem readTo_of_ty {fuel : Nat} {t : Ty ρ} {json : Json} {after : List ρ}
    (written : ty definition fuel t [] = some (.ok json, after)) (unshadowed : Unshadowed definition t) (depth : Nat) :
    readTo depth [] json = unfoldTo definition depth t := by
  have valid : Valid definition [] := ⟨by simp, by simp⟩
  exact readTo_of_stands depth valid (stands_of_unshadowed written unshadowed)

theorem ty_read_back {fuel : Nat} {t : Ty ρ} {json : Json} {after : List ρ}
    (written : ty definition fuel t [] = some (.ok json, after)) :
    (Stands definition (Nearest definition) [] t json ↔ Unshadowed definition t) ∧
    (Unshadowed definition t → (∀ depth, readTo depth [] json = unfoldTo definition depth t) ∧
      ∀ {σ : Type} [DecidableEq σ] (others : σ → Aggregate (Ty σ)) (other : Ty σ) (fuel : Nat) (after : List σ),
        ty others fuel other [] = some (.ok json, after) → Unshadowed others other →
          ∀ depth, unfoldTo others depth other = unfoldTo definition depth t) := by
  refine ⟨⟨fun stands inside ref below => ?_, stands_of_unshadowed written⟩, fun unshadowed => ⟨?_, ?_⟩⟩
  · exact names_of_stands below rfl [] rfl List.nodup_nil stands
  · exact readTo_of_ty written unshadowed
  · intro σ _ others other fuel after same also depth
    rw [← readTo_of_ty same also, readTo_of_ty written unshadowed]

end

def nodes : Unit → Aggregate (Ty Unit) := fun _ => node ()

theorem unshadowed_nodes : Unshadowed nodes (.recursive ()) := by
  intro inside ref below near one far split written other member
  have only : near = [] := by
    cases below with
    | here => simp at split
    | full _ child below =>
      obtain rfl := List.mem_singleton.mp child
      cases below with
      | shape child below =>
        obtain rfl := List.mem_singleton.mp child
        cases below with
        | here =>
          have length := congrArg List.length split
          simp only [List.length_cons, List.length_nil, List.length_append] at length
          exact List.length_eq_zero_iff.mp (by omega)
        | full fresh => exact absurd ⟨_, List.mem_cons_self .., rfl⟩ fresh
  subst only
  cases member

theorem ty_read_back_nodes : ∃ json, ty nodes 3 (.recursive ()) [] = some (.ok json, []) ∧
    ∀ depth, readTo depth [] json = unfoldTo nodes depth (.recursive ()) := by
  have same : ty nodes 3 (.recursive ()) [] = some (.ok (written nodes 3 [] (.recursive ())), []) := rfl
  exact ⟨_, same, ((ty_read_back same).2 unshadowed_nodes).1⟩

def fourNodes : Fin 4 → Aggregate (Ty (Fin 4))
  | 0 => numberedNode 1
  | 1 => node 0
  | 2 => numberedNode 3
  | 3 => node 3

theorem fourNodes_same_json : ∃ json, ty fourNodes 5 (.recursive 0) [] = some (.ok json, []) ∧
    ty fourNodes 5 (.recursive 2) [] = some (.ok json, []) ∧
      unfoldTo fourNodes 5 (.recursive 0) ≠ unfoldTo fourNodes 5 (.recursive 2) := by
  refine ⟨_, rfl, rfl, ?_⟩
  intro same
  cases same

end SourceVerification.Compile.Types
