import Mathlib.Data.List.Nodup

set_option autoImplicit false

/-!
# Tables under concurrent transactions

A row is in a table with what the open transactions have done to it. A statement of a READ COMMITTED
transaction sees the rows committed when it starts and its own changes.
-/

namespace Versions

variable {Tx Row : Type}

inductive Status (Tx : Type)
  | pending (tx : Tx)
  | committed
  -- Committed, and deleted by an open transaction.
  | deleting (tx : Tx)
deriving DecidableEq

structure Version (Tx Row : Type) where
  row : Row
  status : Status Tx

abbrev Table (Tx Row : Type) := List (Version Tx Row)

namespace Status

def isCommitted : Status Tx → Bool
  | .pending _ => false
  | .committed => true
  | .deleting _ => true

variable [DecidableEq Tx]

def seenBy (tx : Tx) : Status Tx → Bool
  | .pending other => other = tx
  | .committed => true
  | .deleting other => other ≠ tx

/-- Whether a statement of `tx` that needs the row waits for another transaction to end. -/
def heldByOther (tx : Tx) : Status Tx → Bool
  | .pending other => other ≠ tx
  | .committed => false
  | .deleting other => other ≠ tx

def delete (tx : Tx) : Status Tx → Option (Status Tx)
  | .pending other => if other = tx then none else some (.pending other)
  | .committed => some (.deleting tx)
  | .deleting other => some (.deleting other)

def commit (tx : Tx) : Status Tx → Option (Status Tx)
  | .pending other => some (if other = tx then .committed else .pending other)
  | .committed => some .committed
  | .deleting other => if other = tx then none else some (.deleting other)

def rollback (tx : Tx) : Status Tx → Option (Status Tx)
  | .pending other => if other = tx then none else some (.pending other)
  | .committed => some .committed
  | .deleting other => some (if other = tx then .committed else .deleting other)

end Status

def alter (change : Version Tx Row → Option (Status Tx)) (table : Table Tx Row) : Table Tx Row :=
  table.filterMap fun version => (change version).map fun status => ⟨version.row, status⟩

theorem mem_alter {change : Version Tx Row → Option (Status Tx)} {table : Table Tx Row}
    {version : Version Tx Row} :
    version ∈ alter change table ↔
      ∃ old ∈ table, old.row = version.row ∧ change old = some version.status := by
  simp only [alter, List.mem_filterMap, Option.map_eq_some_iff]
  constructor
  · rintro ⟨old, member, status, changed, rfl⟩
    exact ⟨old, member, rfl, changed⟩
  · rintro ⟨old, member, same, changed⟩
    exact ⟨old, member, version.status, changed, by rw [same]⟩

theorem rows_alter_sublist (change : Version Tx Row → Option (Status Tx)) (table : Table Tx Row) :
    ((alter change table).map (·.row)).Sublist (table.map (·.row)) := by
  induction table with
  | nil => exact .slnil
  | cons version rest ih =>
    cases changed : change version with
    | none =>
      simp only [alter, List.filterMap_cons, changed, Option.map_none]
      exact ih.cons _
    | some status =>
      simp only [alter, List.filterMap_cons, changed, Option.map_some]
      exact ih.cons_cons _

def insert (tx : Tx) (table : Table Tx Row) (row : Row) : Table Tx Row :=
  table ++ [⟨row, .pending tx⟩]

theorem mem_insert {tx : Tx} {table : Table Tx Row} {row : Row} {version : Version Tx Row} :
    version ∈ insert tx table row ↔ version ∈ table ∨ version = ⟨row, .pending tx⟩ := by
  simp [insert]

section Operations

variable [DecidableEq Tx] (tx : Tx) (table : Table Tx Row)

def view : List Row :=
  (table.filter (·.status.seenBy tx)).map (·.row)

def held (wanted : Row → Bool) : Bool :=
  table.any fun version => wanted version.row && version.status.heldByOther tx

def delete (doomed : Row → Bool) : Table Tx Row :=
  alter (fun version => if doomed version.row then version.status.delete tx else some version.status)
    table

def commit : Table Tx Row :=
  alter (fun version => version.status.commit tx) table

def rollback : Table Tx Row :=
  alter (fun version => version.status.rollback tx) table

end Operations

def committed (table : Table Tx Row) : List Row :=
  (table.filter (·.status.isCommitted)).map (·.row)

theorem mem_committed {table : Table Tx Row} {row : Row} :
    row ∈ committed table ↔ ∃ version ∈ table, version.row = row ∧ version.status.isCommitted := by
  simp only [committed, List.mem_map, List.mem_filter]
  constructor
  · rintro ⟨version, ⟨member, settled⟩, same⟩
    exact ⟨version, member, same, settled⟩
  · rintro ⟨version, member, same, settled⟩
    exact ⟨version, ⟨member, settled⟩, same⟩

theorem nodup_committed {Key : Type} (key : Row → Key) {table : Table Tx Row}
    (unique : (table.map fun version => key version.row).Nodup) :
    ((committed table).map key).Nodup := by
  have kept : (committed table).Sublist (table.map (·.row)) :=
    List.filter_sublist.map fun version : Version Tx Row => version.row
  have distinct := (kept.map key).nodup
  simp only [List.map_map] at distinct
  exact distinct unique

variable [DecidableEq Tx] {tx : Tx} {table : Table Tx Row}

theorem mem_view {row : Row} :
    row ∈ view tx table ↔ ∃ version ∈ table, version.row = row ∧ version.status.seenBy tx := by
  simp only [view, List.mem_map, List.mem_filter]
  constructor
  · rintro ⟨version, ⟨member, seen⟩, same⟩
    exact ⟨version, member, same, seen⟩
  · rintro ⟨version, member, same, seen⟩
    exact ⟨version, ⟨member, seen⟩, same⟩

theorem held_eq_false {wanted : Row → Bool} :
    held tx table wanted = false ↔
      ∀ version ∈ table, wanted version.row → version.status.heldByOther tx = false := by
  simp [held]

theorem unwanted_of_absent {wanted : Row → Bool} (free : held tx table wanted = false)
    (absent : ∀ row ∈ view tx table, wanted row = false)
    (undoomed : ∀ version ∈ table, version.status ≠ .deleting tx) :
    ∀ version ∈ table, wanted version.row = false := by
  intro version member
  by_contra named
  have named : wanted version.row = true := by simpa using named
  have mine := held_eq_false.mp free version member named
  have seen : version.status.seenBy tx = true := by
    have kept := undoomed version member
    cases before : version.status <;> simp_all [Status.heldByOther, Status.seenBy]
  have sees : version.row ∈ view tx table := mem_view.mpr ⟨version, member, rfl, seen⟩
  rw [absent version.row sees] at named
  cases named

theorem mem_delete {doomed : Row → Bool} {version : Version Tx Row}
    (member : version ∈ delete tx table doomed) :
    ∃ old ∈ table, old.row = version.row ∧ (version.status = old.status ∨
      (doomed version.row = true ∧ old.status = .committed ∧ version.status = .deleting tx)) := by
  obtain ⟨old, inside, same, changed⟩ := mem_alter.mp member
  refine ⟨old, inside, same, ?_⟩
  split_ifs at changed with gone
  · cases before : old.status with
    | pending owner =>
      rw [before] at changed
      simp only [Status.delete, Option.ite_none_left_eq_some, Option.some.injEq] at changed
      exact .inl changed.2.symm
    | committed =>
      rw [before] at changed
      exact .inr ⟨same ▸ gone, rfl, (Option.some.inj changed).symm⟩
    | deleting owner =>
      rw [before] at changed
      exact .inl (Option.some.inj changed).symm
  · exact .inl (Option.some.inj changed).symm

theorem mem_commit {version : Version Tx Row} (member : version ∈ commit tx table) :
    ∃ old ∈ table, old.row = version.row ∧ ((version.status = old.status ∧
        version.status ≠ .pending tx ∧ version.status ≠ .deleting tx) ∨
      (old.status = .pending tx ∧ version.status = .committed)) := by
  obtain ⟨old, inside, same, changed⟩ := mem_alter.mp member
  refine ⟨old, inside, same, ?_⟩
  cases before : old.status with
  | pending owner =>
    rw [before] at changed
    by_cases own : owner = tx
    · exact .inr ⟨by rw [own], by simpa [Status.commit, own, eq_comm] using changed⟩
    · have kept : version.status = .pending owner := by
        simpa [Status.commit, own, eq_comm] using changed
      exact .inl (by simp [kept, own])
  | committed =>
    rw [before] at changed
    exact .inl (by simp [← Option.some.inj changed])
  | deleting owner =>
    rw [before] at changed
    by_cases own : owner = tx
    · simp [Status.commit, own] at changed
    · have kept : version.status = .deleting owner := by
        simpa [Status.commit, own, eq_comm] using changed
      exact .inl (by simp [kept, own])

theorem mem_rollback {version : Version Tx Row} (member : version ∈ rollback tx table) :
    ∃ old ∈ table, old.row = version.row ∧ ((version.status = old.status ∧
        version.status ≠ .pending tx ∧ version.status ≠ .deleting tx) ∨
      (old.status = .deleting tx ∧ version.status = .committed)) := by
  obtain ⟨old, inside, same, changed⟩ := mem_alter.mp member
  refine ⟨old, inside, same, ?_⟩
  cases before : old.status with
  | pending owner =>
    rw [before] at changed
    by_cases own : owner = tx
    · simp [Status.rollback, own] at changed
    · have kept : version.status = .pending owner := by
        simpa [Status.rollback, own, eq_comm] using changed
      exact .inl (by simp [kept, own])
  | committed =>
    rw [before] at changed
    exact .inl (by simp [← Option.some.inj changed])
  | deleting owner =>
    rw [before] at changed
    by_cases own : owner = tx
    · exact .inr ⟨by rw [own], by simpa [Status.rollback, own, eq_comm] using changed⟩
    · have kept : version.status = .deleting owner := by
        simpa [Status.rollback, own, eq_comm] using changed
      exact .inl (by simp [kept, own])

theorem mem_commit_of_other {version : Version Tx Row} (member : version ∈ table)
    (inserted : version.status ≠ .pending tx) (deleted : version.status ≠ .deleting tx) :
    version ∈ commit tx table := by
  refine mem_alter.mpr ⟨version, member, rfl, ?_⟩
  cases before : version.status <;> simp_all [Status.commit]

theorem mem_rollback_of_other {version : Version Tx Row} (member : version ∈ table)
    (inserted : version.status ≠ .pending tx) (deleted : version.status ≠ .deleting tx) :
    version ∈ rollback tx table := by
  refine mem_alter.mpr ⟨version, member, rfl, ?_⟩
  cases before : version.status <;> simp_all [Status.rollback]

theorem mem_commit_of_pending {row : Row} (member : ⟨row, .pending tx⟩ ∈ table) :
    ⟨row, .committed⟩ ∈ commit tx table :=
  mem_alter.mpr ⟨_, member, rfl, by simp [Status.commit]⟩

theorem mem_delete_of_pending {doomed : Row → Bool} {row : Row} {other : Tx} (differs : other ≠ tx)
    (member : ⟨row, .pending other⟩ ∈ table) : ⟨row, .pending other⟩ ∈ delete tx table doomed :=
  mem_alter.mpr ⟨_, member, rfl, by simp [Status.delete, differs]⟩

theorem mem_delete_of_kept {doomed : Row → Bool} {version : Version Tx Row} (member : version ∈ table)
    (kept : doomed version.row = false) : version ∈ delete tx table doomed :=
  mem_alter.mpr ⟨version, member, rfl, by simp [kept]⟩

variable {Parent Child Key : Type}

namespace Status

def supports : Status Tx → Status Tx → Prop
  | .pending tx, child => child = .pending tx
  | .committed, _ => True
  | .deleting tx, child => child = .deleting tx

variable {parent child next : Status Tx}

theorem supports_commit (supported : parent.supports child) (settled : child.commit tx = some next) :
    ∃ status, parent.commit tx = some status ∧ status.supports next := by
  cases parent with
  | committed => exact ⟨.committed, rfl, trivial⟩
  | pending owner =>
    obtain rfl : child = .pending owner := supported
    obtain rfl := Option.some.inj settled
    refine ⟨_, rfl, ?_⟩
    split_ifs
    · trivial
    · rfl
  | deleting owner =>
    obtain rfl : child = .deleting owner := supported
    by_cases own : owner = tx
    · simp [commit, own] at settled
    · obtain rfl : Status.deleting owner = next := by simpa [commit, own] using settled
      exact ⟨.deleting owner, by simp [commit, own], rfl⟩

theorem supports_rollback (supported : parent.supports child)
    (settled : child.rollback tx = some next) :
    ∃ status, parent.rollback tx = some status ∧ status.supports next := by
  cases parent with
  | committed => exact ⟨.committed, rfl, trivial⟩
  | pending owner =>
    obtain rfl : child = .pending owner := supported
    by_cases own : owner = tx
    · simp [rollback, own] at settled
    · obtain rfl : Status.pending owner = next := by simpa [rollback, own] using settled
      exact ⟨.pending owner, by simp [rollback, own], rfl⟩
  | deleting owner =>
    obtain rfl : child = .deleting owner := supported
    obtain rfl := Option.some.inj settled
    refine ⟨_, rfl, ?_⟩
    split_ifs
    · trivial
    · rfl

theorem supports_delete (supported : parent.supports child) (parentFree : parent.heldByOther tx = false)
    (childFree : child.heldByOther tx = false) (settled : child.delete tx = some next) :
    ∃ status, parent.delete tx = some status ∧ status.supports next := by
  cases parent with
  | committed =>
    refine ⟨.deleting tx, rfl, ?_⟩
    cases child with
    | pending owner => simp_all [heldByOther, delete]
    | committed => exact (Option.some.inj settled).symm
    | deleting owner =>
      obtain rfl : owner = tx := by simpa [heldByOther] using childFree
      exact (Option.some.inj settled).symm
  | pending owner =>
    obtain rfl : child = .pending owner := supported
    simp_all [heldByOther, delete]
  | deleting owner =>
    obtain rfl : child = .deleting owner := supported
    exact ⟨.deleting owner, rfl, (Option.some.inj settled).symm⟩

end Status

section ForeignKey

variable {Parent Child Key : Type}

def Referential (key : Parent → Key) (reference : Child → Key) (parents : Table Tx Parent)
    (children : Table Tx Child) : Prop :=
  ∀ child ∈ children, ∃ parent ∈ parents, key parent.row = reference child.row ∧
    parent.status.supports child.status

namespace Referential

variable {key : Parent → Key} {reference : Child → Key} {parents : Table Tx Parent}
  {children : Table Tx Child}

omit [DecidableEq Tx] in
theorem insertParent (refers : Referential key reference parents children) (row : Parent) :
    Referential key reference (insert tx parents row) children := by
  intro child member
  obtain ⟨parent, inside, rest⟩ := refers child member
  exact ⟨parent, mem_insert.mpr (.inl inside), rest⟩

omit [DecidableEq Tx] in
theorem insertChild (refers : Referential key reference parents children) {row : Child}
    (referenced : ∃ parent ∈ parents, key parent.row = reference row ∧
      parent.status.supports (.pending tx)) :
    Referential key reference parents (insert tx children row) := by
  intro child member
  rcases mem_insert.mp member with old | rfl
  · exact refers child old
  · exact referenced

omit [DecidableEq Tx] in
theorem alterBoth (refers : Referential key reference parents children)
    {parentChange : Version Tx Parent → Option (Status Tx)}
    {childChange : Version Tx Child → Option (Status Tx)}
    (kept : ∀ parent ∈ parents, ∀ child ∈ children, ∀ next, key parent.row = reference child.row →
      parent.status.supports child.status → childChange child = some next →
      ∃ status, parentChange parent = some status ∧ status.supports next) :
    Referential key reference (alter parentChange parents) (alter childChange children) := by
  intro child member
  obtain ⟨old, inside, same, settled⟩ := mem_alter.mp member
  obtain ⟨parent, held, keyed, supported⟩ := refers old inside
  obtain ⟨status, changed, supports⟩ := kept parent held old inside _ keyed supported settled
  exact ⟨⟨parent.row, status⟩, mem_alter.mpr ⟨parent, held, rfl, changed⟩, same ▸ keyed, supports⟩

theorem commit (refers : Referential key reference parents children) (tx : Tx) :
    Referential key reference (Versions.commit tx parents) (Versions.commit tx children) :=
  refers.alterBoth fun _ _ _ _ _ _ supported settled => Status.supports_commit supported settled

theorem rollback (refers : Referential key reference parents children) (tx : Tx) :
    Referential key reference (Versions.rollback tx parents) (Versions.rollback tx children) :=
  refers.alterBoth fun _ _ _ _ _ _ supported settled => Status.supports_rollback supported settled

theorem cascade (refers : Referential key reference parents children) (gone : Key → Bool)
    (parentsFree : held tx parents (fun row => gone (key row)) = false)
    (childrenFree : held tx children (fun row => gone (reference row)) = false) :
    Referential key reference (delete tx parents fun row => gone (key row))
      (delete tx children fun row => gone (reference row)) := by
  refine refers.alterBoth fun parent inside child member next keyed supported settled => ?_
  by_cases doomed : gone (reference child.row) = true
  · simp only [keyed, doomed, if_true] at settled ⊢
    exact Status.supports_delete supported
      (held_eq_false.mp parentsFree parent inside (keyed ▸ doomed))
      (held_eq_false.mp childrenFree child member doomed) settled
  · simp only [keyed, doomed, if_false, Option.some.injEq, Bool.false_eq_true] at settled ⊢
    exact ⟨_, rfl, settled ▸ supported⟩

theorem deleteChildren (refers : Referential key reference parents children) {doomed : Child → Bool}
    (free : held tx children doomed = false) :
    Referential key reference parents (delete tx children doomed) := by
  intro child member
  obtain ⟨old, inside, same, settled⟩ := mem_alter.mp member
  obtain ⟨parent, present, keyed, supported⟩ := refers old inside
  refine ⟨parent, present, same ▸ keyed, ?_⟩
  split_ifs at settled with gone
  · have mine := held_eq_false.mp free old inside gone
    cases before : parent.status with
    | committed => trivial
    | pending owner =>
      have owned : old.status = .pending owner := by simpa [before, Status.supports] using supported
      rw [owned] at settled mine
      obtain rfl : owner = tx := by simpa [Status.heldByOther] using mine
      simp [Status.delete] at settled
    | deleting owner =>
      have owned : old.status = .deleting owner := by simpa [before, Status.supports] using supported
      rw [owned] at settled
      exact (Option.some.inj settled).symm
  · exact Option.some.inj settled ▸ supported

end Referential

end ForeignKey

end Versions
