import Mathlib.Data.List.ProdSigma
import Mathlib.Data.List.Sort
import Mathlib.Data.Prod.Lex
import Mathlib.Data.String.Basic
import SourceVerification.Registry.Schema
import SourceVerification.Shared.DistinctOn

set_option autoImplicit false

namespace SourceVerification.Migration

open Registry

/-- A row of `packages`, with whatever columns no statement names. -/
structure Package (Columns : Type) where
  id : RowId
  commitment : String
  debugCommitment : Option String
  createdAt : Time
  columns : Columns

structure Child (Columns : Type) where
  packageId : RowId
  columns : Columns

structure Kept where
  id : RowId
  commitment : String

structure Rows (P C N : Type) where
  packages : List (Package P)
  components : List (Child C)
  notes : List (Child N)

structure Database (P C N : Type) extends Rows P C N where
  ids : (packages.map (·.id)).Nodup
  componentKeys : ∀ component ∈ components, component.packageId ∈ packages.map (·.id)
  noteKeys : ∀ note ∈ notes, note.packageId ∈ packages.map (·.id)

section Statements

variable {P C N Columns : Type}

-- `"commitment", ("debug_commitment" IS NULL), "created_at", "id"`
def Package.order (package : Package P) : String ×ₗ Bool ×ₗ Time ×ₗ RowId :=
  toLex (package.commitment, toLex (package.debugCommitment.isNone,
    toLex (package.createdAt, package.id)))

def distinctPackages (packages : List (Package P)) : List (Package P) :=
  Tables.distinctOn (·.commitment) (packages.insertionSort fun a b => a.order ≤ b.order)

def keptPackages (packages : List (Package P)) : List Kept :=
  (distinctPackages packages).map fun package => ⟨package.id, package.commitment⟩

-- `k."commitment" = p."commitment"` and `p."id" <> k."id"`
def replaces (kept : Kept) (package : Package P) : Bool :=
  kept.commitment = package.commitment ∧ package.id ≠ kept.id

def updatePackageId (packages : List (Package P)) (kept : List Kept) (child : Child Columns) :
    Child Columns :=
  match (packages.product kept).find? fun (package, kept) =>
      child.packageId = package.id && replaces kept package with
  | some (_, kept) => { child with packageId := kept.id }
  | none => child

def updateComponents (kept : List Kept) (rows : Rows P C N) : Rows P C N :=
  { rows with components := rows.components.map (updatePackageId rows.packages kept) }

def updateNotes (kept : List Kept) (rows : Rows P C N) : Rows P C N :=
  { rows with notes := rows.notes.map (updatePackageId rows.packages kept) }

def cascade (deleted : List (Package P)) (children : List (Child Columns)) : List (Child Columns) :=
  children.filter (·.packageId ∉ deleted.map (·.id))

def deletePackages (kept : List Kept) (rows : Rows P C N) : Rows P C N :=
  let deleted := rows.packages.filter fun package => kept.any (replaces · package)
  { packages := rows.packages.filter fun package => !kept.any (replaces · package)
    components := cascade deleted rows.components
    notes := cascade deleted rows.notes }

def migrate (rows : Rows P C N) : Rows P C N :=
  let kept := keptPackages rows.packages
  deletePackages kept (updateNotes kept (updateComponents kept rows))

end Statements

section

variable {P C N Columns : Type} {packages : List (Package P)}

theorem order_sorted (packages : List (Package P)) :
    (packages.insertionSort fun a b => a.order ≤ b.order).Pairwise fun a b => a.order ≤ b.order := by
  have total : Std.Total fun a b : Package P => a.order ≤ b.order := ⟨fun a b => le_total _ _⟩
  have trans : IsTrans (Package P) fun a b => a.order ≤ b.order := ⟨fun _ _ _ => le_trans⟩
  exact List.pairwise_insertionSort _ packages

theorem mem_of_mem_distinctPackages {package : Package P}
    (member : package ∈ distinctPackages packages) : package ∈ packages :=
  (List.mem_insertionSort _).mp ((Tables.distinctOn_sublist _ _).subset member)

theorem distinctPackages_unique {package other : Package P}
    (member : package ∈ distinctPackages packages) (also : other ∈ distinctPackages packages)
    (same : package.commitment = other.commitment) : package = other :=
  List.inj_on_of_nodup_map (Tables.distinctOn_nodup _ _) member also same

theorem exists_distinctPackages {package : Package P} (member : package ∈ packages) :
    ∃ first ∈ distinctPackages packages, first.commitment = package.commitment ∧
      first.order ≤ package.order := by
  obtain ⟨first, inside, same, before⟩ := Tables.exists_distinctOn (·.commitment)
    (order_sorted packages) ((List.mem_insertionSort _).mpr member)
  refine ⟨first, inside, same, ?_⟩
  rcases before with rfl | before
  · exact le_refl _
  · exact before

/-- Of the rows of one commitment: one with a debug build if there is one, else the oldest. -/
def Preferred (package other : Package P) : Prop :=
  (other.debugCommitment.isSome → package.debugCommitment.isSome) ∧
    (package.debugCommitment.isSome = other.debugCommitment.isSome →
      package.createdAt ≤ other.createdAt)

theorem preferred_of_order {package other : Package P} (same : package.commitment = other.commitment)
    (before : package.order ≤ other.order) : Preferred package other := by
  simp only [Package.order, Prod.Lex.toLex_le_toLex, same, lt_irrefl, true_and, false_or] at before
  unfold Preferred
  generalize package.debugCommitment = mine at before ⊢
  generalize other.debugCommitment = theirs at before ⊢
  have older (stamps : package.createdAt < other.createdAt ∨
      package.createdAt = other.createdAt ∧ package.id ≤ other.id) :
      package.createdAt ≤ other.createdAt := by
    rcases stamps with earlier | ⟨equal, -⟩
    · exact earlier.le
    · exact equal.le
  cases mine <;> cases theirs <;> simp [Bool.lt_iff] at before ⊢
  all_goals exact older before

theorem replaces_distinct {package kept : Package P} (ids : (packages.map (·.id)).Nodup)
    (member : package ∈ packages) (inside : kept ∈ distinctPackages packages)
    (same : kept.commitment = package.commitment) :
    replaces ⟨kept.id, kept.commitment⟩ package = true ↔ package ≠ kept := by
  simp only [replaces, same, true_and, decide_eq_true_eq]
  refine not_congr ⟨fun equal => ?_, fun equal => congrArg _ equal⟩
  exact List.inj_on_of_nodup_map ids member (mem_of_mem_distinctPackages inside) equal

theorem any_replaces (ids : (packages.map (·.id)).Nodup) {package : Package P}
    (member : package ∈ packages) :
    (keptPackages packages).any (replaces · package) = false ↔ package ∈ distinctPackages packages := by
  obtain ⟨first, inside, same, -⟩ := exists_distinctPackages member
  simp only [keptPackages, List.any_map, List.any_eq_false, Function.comp_apply]
  constructor
  · intro none_replaces
    have stays := none_replaces first inside
    rw [replaces_distinct ids member inside same, not_not] at stays
    exact stays ▸ inside
  · intro kept other among
    by_cases agrees : other.commitment = package.commitment
    · rw [replaces_distinct ids member among agrees, not_not]
      exact distinctPackages_unique kept among agrees.symm
    · simp [replaces, agrees]

theorem updatePackageId_eq (ids : (packages.map (·.id)).Nodup) {package first : Package P}
    (member : package ∈ packages) (inside : first ∈ distinctPackages packages)
    (same : first.commitment = package.commitment) {child : Child Columns}
    (references : child.packageId = package.id) :
    updatePackageId packages (keptPackages packages) child = { child with packageId := first.id } := by
  unfold updatePackageId
  cases found : (packages.product (keptPackages packages)).find? (fun (package, kept) =>
      child.packageId = package.id && replaces kept package) with
  | none =>
    have unmoved := List.find?_eq_none.mp found (package, ⟨first.id, first.commitment⟩)
      (List.mem_product.mpr ⟨member, List.mem_map_of_mem inside⟩)
    simp only [references, decide_true, Bool.true_and, replaces_distinct ids member inside same,
      not_not] at unmoved
    rw [← unmoved, ← references]
  | some pair =>
    obtain ⟨owner, kept⟩ := pair
    obtain ⟨owns, listed⟩ := List.mem_product.mp (List.mem_of_find?_eq_some found)
    have joins := List.find?_some found
    simp only [references, Bool.and_eq_true, decide_eq_true_eq] at joins
    obtain rfl := List.inj_on_of_nodup_map ids member owns joins.1
    obtain ⟨other, among, rfl⟩ := List.mem_map.mp listed
    have agrees : other.commitment = package.commitment := by
      simpa using And.left (of_decide_eq_true joins.2)
    rw [distinctPackages_unique inside among (same.trans agrees.symm)]

theorem mem_migrate_packages (rows : Rows P C N) (ids : (rows.packages.map (·.id)).Nodup)
    (package : Package P) :
    package ∈ (migrate rows).packages ↔ package ∈ distinctPackages rows.packages := by
  simp only [migrate, deletePackages, updateNotes, updateComponents, List.mem_filter,
    Bool.not_eq_true']
  constructor
  · rintro ⟨member, stays⟩
    exact (any_replaces ids member).mp stays
  · intro kept
    have member := mem_of_mem_distinctPackages kept
    exact ⟨member, (any_replaces ids member).mpr kept⟩

/-- The row as before, but for the package's row it references. -/
def Moved (before after : List (Package P)) (old new : Child Columns) : Prop :=
  new.columns = old.columns ∧ ∃ package ∈ before, package.id = old.packageId ∧
    ∃ kept ∈ after, kept.id = new.packageId ∧ kept.commitment = package.commitment

-- No child is left on a row the `DELETE` drops.
theorem cascade_moved (rows : Rows P C N) (ids : (rows.packages.map (·.id)).Nodup)
    {children : List (Child Columns)}
    (keys : ∀ child ∈ children, child.packageId ∈ rows.packages.map (·.id)) :
    List.Forall₂ (Moved rows.packages (migrate rows).packages) children
      (cascade (rows.packages.filter fun package =>
          (keptPackages rows.packages).any (replaces · package))
        (children.map (updatePackageId rows.packages (keptPackages rows.packages)))) := by
  have ends : ∀ child ∈ children, ∃ package ∈ rows.packages, package.id = child.packageId ∧
      ∃ kept ∈ distinctPackages rows.packages, kept.commitment = package.commitment ∧
        updatePackageId rows.packages (keptPackages rows.packages) child =
          { child with packageId := kept.id } := by
    intro child present
    obtain ⟨package, member, references⟩ := List.mem_map.mp (keys child present)
    obtain ⟨kept, inside, same, -⟩ := exists_distinctPackages member
    exact ⟨package, member, references, kept, inside, same,
      updatePackageId_eq ids member inside same references.symm⟩
  have stays : cascade (rows.packages.filter fun package =>
        (keptPackages rows.packages).any (replaces · package))
      (children.map (updatePackageId rows.packages (keptPackages rows.packages))) =
        children.map (updatePackageId rows.packages (keptPackages rows.packages)) := by
    refine List.filter_eq_self.mpr fun moved present => ?_
    obtain ⟨child, listed, rfl⟩ := List.mem_map.mp present
    obtain ⟨package, member, -, kept, inside, -, moves⟩ := ends child listed
    simp only [moves, decide_eq_true_eq, List.mem_map, List.mem_filter, not_exists, not_and]
    rintro dropped ⟨owns, deleted⟩ equal
    obtain rfl := List.inj_on_of_nodup_map ids owns (mem_of_mem_distinctPackages inside) equal
    rw [(any_replaces ids owns).mpr inside] at deleted
    cases deleted
  rw [stays, List.forall₂_map_right_iff, List.forall₂_same]
  intro child present
  obtain ⟨package, member, references, kept, inside, same, moves⟩ := ends child present
  rw [moves]
  exact ⟨rfl, package, member, references, kept, (mem_migrate_packages rows ids kept).mpr inside, rfl, same⟩

/-- One row for each commitment that had any, the one with a debug build or else the oldest, and every
component and note as before, on the row kept for its package. -/
theorem migrate_one_per_package (database : Database P C N) :
    (migrate database.toRows).packages.Sublist database.packages ∧
      ((migrate database.toRows).packages.map (·.commitment)).Nodup ∧
      (∀ package ∈ database.packages, ∃ kept ∈ (migrate database.toRows).packages,
        kept.commitment = package.commitment ∧ Preferred kept package) ∧
      List.Forall₂ (Moved database.packages (migrate database.toRows).packages)
        database.components (migrate database.toRows).components ∧
      List.Forall₂ (Moved database.packages (migrate database.toRows).packages)
        database.notes (migrate database.toRows).notes := by
  have kept := mem_migrate_packages database.toRows database.ids
  have sublist : (migrate database.toRows).packages.Sublist database.packages := List.filter_sublist
  refine ⟨sublist, ?_, fun package member => ?_,
    cascade_moved database.toRows database.ids database.componentKeys,
    cascade_moved database.toRows database.ids database.noteKeys⟩
  · have rows : (migrate database.toRows).packages.Nodup :=
      (List.Nodup.of_map _ database.ids).sublist sublist
    refine rows.map_on fun package member other also same => ?_
    exact distinctPackages_unique ((kept package).mp member) ((kept other).mp also) same
  · obtain ⟨first, inside, same, before⟩ := exists_distinctPackages member
    exact ⟨first, (kept first).mpr inside, same, preferred_of_order same before⟩

end

def counterThrice : Database Unit Unit Unit where
  packages := [⟨1, "counter", none, 10, ()⟩, ⟨2, "counter", some "debug", 30, ()⟩,
    ⟨3, "counter", some "debug", 20, ()⟩, ⟨4, "adder", none, 15, ()⟩, ⟨5, "adder", none, 5, ()⟩]
  components := [⟨1, ()⟩, ⟨2, ()⟩, ⟨4, ()⟩]
  notes := [⟨3, ()⟩, ⟨5, ()⟩]
  ids := by decide
  componentKeys := by decide
  noteKeys := by decide

theorem counter_migrated :
    (migrate counterThrice.toRows).packages.map (·.id) = [3, 5] ∧
      (migrate counterThrice.toRows).components.map (·.packageId) = [3, 3, 5] ∧
      (migrate counterThrice.toRows).notes.map (·.packageId) = [3, 5] ∧
      (∀ package ∈ counterThrice.packages, ∃ kept ∈ (migrate counterThrice.toRows).packages,
        kept.commitment = package.commitment ∧ Preferred kept package) ∧
      List.Forall₂ (Moved counterThrice.packages (migrate counterThrice.toRows).packages)
        counterThrice.components (migrate counterThrice.toRows).components := by
  obtain ⟨-, -, preferred, components, -⟩ := migrate_one_per_package counterThrice
  exact ⟨by decide +kernel, by decide +kernel, by decide +kernel, preferred, components⟩

end SourceVerification.Migration
