import SourceVerification.Shared.Versions

set_option autoImplicit false

namespace Versions

variable {Tx Row Key : Type} [DecidableEq Tx]

inductive Statement (Row : Type)
  | keep
  | insert (row : Row)
  | delete (doomed : Row → Bool)
  | commit
  | rollback

namespace Statement

def apply (tx : Tx) (table : Table Tx Row) : Statement Row → Table Tx Row
  | .keep => table
  | .insert row => Versions.insert tx table row
  | .delete doomed => Versions.delete tx table doomed
  | .commit => Versions.commit tx table
  | .rollback => Versions.rollback tx table

def ends : Statement Row → Bool
  | .commit => true
  | .rollback => true
  | _ => false

variable {tx : Tx} {table : Table Tx Row} {statement : Statement Row}

theorem origin {version : Version Tx Row} (member : version ∈ statement.apply tx table) :
    (∃ row, statement = .insert row ∧ version = ⟨row, .pending tx⟩) ∨
      ∃ old ∈ table, old.row = version.row ∧
        ((version.status = old.status ∧
            (statement.ends = true → version.status ≠ .pending tx ∧ version.status ≠ .deleting tx)) ∨
          (version.status = .committed ∧ (statement = .commit ∧ old.status = .pending tx ∨
            statement = .rollback ∧ old.status = .deleting tx)) ∨
          (∃ doomed, statement = .delete doomed ∧ doomed version.row = true ∧ old.status = .committed ∧
            version.status = .deleting tx)) := by
  cases statement with
  | keep => exact .inr ⟨version, member, rfl, .inl ⟨rfl, by simp [ends]⟩⟩
  | insert row =>
    rcases mem_insert.mp member with old | new
    · exact .inr ⟨version, old, rfl, .inl ⟨rfl, by simp [ends]⟩⟩
    · exact .inl ⟨row, rfl, new⟩
  | delete doomed =>
    obtain ⟨old, inside, same, kept | ⟨gone, before, after⟩⟩ := mem_delete member
    · exact .inr ⟨old, inside, same, .inl ⟨kept, by simp [ends]⟩⟩
    · exact .inr ⟨old, inside, same, .inr (.inr ⟨doomed, rfl, gone, before, after⟩)⟩
  | commit =>
    obtain ⟨old, inside, same, ⟨kept, free⟩ | ⟨before, after⟩⟩ := mem_commit member
    · exact .inr ⟨old, inside, same, .inl ⟨kept, fun _ => free⟩⟩
    · exact .inr ⟨old, inside, same, .inr (.inl ⟨after, .inl ⟨rfl, before⟩⟩)⟩
  | rollback =>
    obtain ⟨old, inside, same, ⟨kept, free⟩ | ⟨before, after⟩⟩ := mem_rollback member
    · exact .inr ⟨old, inside, same, .inl ⟨kept, fun _ => free⟩⟩
    · exact .inr ⟨old, inside, same, .inr (.inl ⟨after, .inr ⟨rfl, before⟩⟩)⟩

theorem row_origin {version : Version Tx Row} (member : version ∈ statement.apply tx table) :
    statement = .insert version.row ∨ ∃ old ∈ table, old.row = version.row := by
  rcases origin member with ⟨row, inserts, rfl⟩ | ⟨old, inside, same, _⟩
  · exact .inl inserts
  · exact .inr ⟨old, inside, same⟩

theorem rows_sublist (table : Table Tx Row) (kept : ∀ row, statement ≠ .insert row) :
    ((statement.apply tx table).map (·.row)).Sublist (table.map (·.row)) := by
  cases statement with
  | insert row => exact absurd rfl (kept row)
  | keep => exact List.Sublist.refl _
  | delete | commit | rollback => exact rows_alter_sublist _ _

theorem nodup_apply (key : Row → Key) (unique : (table.map fun version => key version.row).Nodup)
    (fresh : ∀ row, statement = .insert row → ∀ version ∈ table, key version.row ≠ key row) :
    ((statement.apply tx table).map fun version => key version.row).Nodup := by
  by_cases inserts : ∃ row, statement = .insert row
  · obtain ⟨row, rfl⟩ := inserts
    have unused : key row ∉ table.map fun version => key version.row := by
      intro used
      obtain ⟨version, member, same⟩ := List.mem_map.mp used
      exact fresh row rfl version member same
    simpa [apply, Versions.insert, List.nodup_append, unique] using unused
  · have kept : ((statement.apply tx table).map (·.row)).Sublist (table.map (·.row)) :=
      rows_sublist table fun row same => inserts ⟨row, same⟩
    have distinct := (kept.map key).nodup
    simp only [List.map_map] at distinct
    exact distinct unique

theorem keeps_pending {row : Row} {other : Tx} (differs : other ≠ tx)
    (member : ⟨row, .pending other⟩ ∈ table) : ⟨row, .pending other⟩ ∈ statement.apply tx table := by
  cases statement with
  | keep => exact member
  | insert => exact mem_insert.mpr (.inl member)
  | delete => exact mem_delete_of_pending differs member
  | commit => exact mem_commit_of_other member (by simp [differs]) (by simp)
  | rollback => exact mem_rollback_of_other member (by simp [differs]) (by simp)

theorem keeps_committed {version : Version Tx Row} (member : version ∈ table)
    (settled : version.status.isCommitted = true) (undoomed : version.status ≠ .deleting tx) :
    ∃ kept ∈ statement.apply tx table, kept.row = version.row ∧ kept.status.isCommitted = true := by
  have owned : version.status ≠ .pending tx := by
    intro pending
    simp [pending, Status.isCommitted] at settled
  cases statement with
  | keep => exact ⟨version, member, rfl, settled⟩
  | insert => exact ⟨version, mem_insert.mpr (.inl member), rfl, settled⟩
  | commit => exact ⟨version, mem_commit_of_other member owned undoomed, rfl, settled⟩
  | rollback => exact ⟨version, mem_rollback_of_other member owned undoomed, rfl, settled⟩
  | delete doomed =>
    by_cases gone : doomed version.row = true
    · cases before : version.status with
      | pending other => simp [before, Status.isCommitted] at settled
      | committed =>
        exact ⟨⟨version.row, .deleting tx⟩,
          mem_alter.mpr ⟨version, member, rfl, by simp [gone, before, Status.delete]⟩, rfl, rfl⟩
      | deleting other =>
        exact ⟨version, mem_alter.mpr ⟨version, member, rfl, by simp [gone, before, Status.delete]⟩,
          rfl, settled⟩
    · exact ⟨version, mem_delete_of_kept member (by simpa using gone), rfl, settled⟩

end Statement

structure Numbered (id : Row → Nat) (next : Nat) (table : Table Tx Row) : Prop where
  distinct : (table.map fun version => id version.row).Nodup
  below : ∀ version ∈ table, id version.row < next

structure Named (id : Row → Nat) (next : Nat) (table : Table Tx Row) (number : Nat) (holds : Row → Prop) :
    Prop where
  given : number < next
  holds : ∀ version ∈ table, id version.row = number → holds version.row

section Numbers

variable {tx : Tx} {id : Row → Nat} {next later number : Nat} {table : Table Tx Row}
  {statement : Statement Row} {holds : Row → Prop}

omit [DecidableEq Tx] in
theorem Numbered.eq_of_id (numbered : Numbered id next table) {first second : Version Tx Row}
    (member : first ∈ table) (other : second ∈ table) (same : id first.row = id second.row) :
    first = second :=
  List.inj_on_of_nodup_map numbered.distinct member other same

omit [DecidableEq Tx] in
theorem Numbered.named (numbered : Numbered id next table) {version : Version Tx Row}
    (member : version ∈ table) (is : holds version.row) :
    Named id next table (id version.row) holds where
  given := numbered.below version member
  holds _ inside same := numbered.eq_of_id inside member same ▸ is

theorem Numbered.apply (numbered : Numbered id next table) (grows : next ≤ later)
    (fresh : ∀ row, statement = .insert row → id row = next ∧ next < later) :
    Numbered id later (statement.apply tx table) := by
  constructor
  · refine Statement.nodup_apply id numbered.distinct fun row inserts version member => ?_
    have := numbered.below version member
    have := fresh row inserts
    omega
  · intro version member
    rcases Statement.row_origin member with inserts | ⟨old, inside, same⟩
    · have new := fresh version.row inserts
      omega
    · have := numbered.below old inside
      rw [← same]
      omega

theorem Named.apply (named : Named id next table number holds) (grows : next ≤ later)
    (fresh : ∀ row, statement = .insert row → id row = next) :
    Named id later (statement.apply tx table) number holds where
  given := by
    have := named.given
    omega
  holds version member same := by
    rcases Statement.row_origin member with inserts | ⟨old, inside, keeps⟩
    · have := fresh version.row inserts
      have := named.given
      omega
    · exact keeps ▸ named.holds old inside (by rw [keeps, same])

omit [DecidableEq Tx] in
theorem Numbered.named_insert (numbered : Numbered id next table) {row : Row} (is : holds row) :
    Named id (next + 1) (insert tx table row) next holds where
  given := by omega
  holds version member same := by
    rcases mem_insert.mp member with old | rfl
    · have := numbered.below version old
      omega
    · exact is

end Numbers

def update (change : Row → Row) (table : Table Tx Row) : Table Tx Row :=
  table.map fun version => ⟨change version.row, version.status⟩

section Update

variable {change : Row → Row} {table : Table Tx Row}

omit [DecidableEq Tx] in
theorem mem_update {version : Version Tx Row} (member : version ∈ update change table) :
    ∃ old ∈ table, change old.row = version.row ∧ version.status = old.status := by
  obtain ⟨old, inside, rfl⟩ := List.mem_map.mp member
  exact ⟨old, inside, rfl, rfl⟩

variable {id : Row → Nat} {next number : Nat} {holds : Row → Prop}

omit [DecidableEq Tx] in
theorem Numbered.update (numbered : Numbered id next table) (keeps : ∀ row, id (change row) = id row) :
    Numbered id next (update change table) := by
  constructor
  · simpa [Versions.update, Function.comp_def, keeps] using numbered.distinct
  · intro version member
    obtain ⟨old, inside, same, _⟩ := mem_update member
    rw [← same, keeps]
    exact numbered.below old inside

omit [DecidableEq Tx] in
theorem Named.update (named : Named id next table number holds) (keeps : ∀ row, id (change row) = id row)
    (is : ∀ row, holds row → holds (change row)) : Named id next (update change table) number holds where
  given := named.given
  holds version member same := by
    obtain ⟨old, inside, changed, _⟩ := mem_update member
    rw [← changed] at same ⊢
    exact is old.row (named.holds old inside (by rw [← keeps, same]))

omit [DecidableEq Tx] in
theorem Referential.updateParents {Child : Type} {key : Row → Key} {reference : Child → Key}
    {children : Table Tx Child} (refers : Referential key reference table children)
    (keeps : ∀ row, key (change row) = key row) :
    Referential key reference (Versions.update change table) children := by
  intro child member
  obtain ⟨parent, inside, keyed, supported⟩ := refers child member
  exact ⟨⟨change parent.row, parent.status⟩, List.mem_map.mpr ⟨parent, inside, rfl⟩,
    (keeps parent.row).trans keyed, supported⟩

end Update

def Alone (tx : Tx) (table : Table Tx Row) : Prop :=
  ∀ version ∈ table, version.status = .committed ∨ version.status = .pending tx ∨
    version.status = .deleting tx

def Inserting (tx : Tx) (table : Table Tx Row) : Prop :=
  ∀ version ∈ table, version.status = .committed ∨ version.status = .pending tx

def Quiet (table : Table Tx Row) : Prop :=
  ∀ version ∈ table, version.status = .committed

instance (table : Table Tx Row) : Decidable (Quiet table) :=
  inferInstanceAs (Decidable (∀ version ∈ table, version.status = .committed))

section Alone

variable {tx : Tx} {table : Table Tx Row}

omit [DecidableEq Tx] in
theorem Inserting.alone (inserting : Inserting tx table) : Alone tx table :=
  fun version member => (inserting version member).imp_right .inl

omit [DecidableEq Tx] in
theorem Quiet.inserting (quiet : Quiet table) : Inserting tx table :=
  fun version member => .inl (quiet version member)

omit [DecidableEq Tx] in
theorem Inserting.insert (inserting : Inserting tx table) (row : Row) :
    Inserting tx (insert tx table row) := by
  intro version member
  rcases mem_insert.mp member with old | rfl
  · exact inserting version old
  · exact .inr rfl

theorem Inserting.view (inserting : Inserting tx table) : view tx table = table.map (·.row) := by
  have seen : table.filter (fun version => version.status.seenBy tx) = table := by
    refine List.filter_eq_self.mpr fun version member => ?_
    rcases inserting version member with status | status <;> simp [status, Status.seenBy]
  rw [Versions.view, seen]

theorem Alone.held (alone : Alone tx table) (wanted : Row → Bool) : held tx table wanted = false := by
  refine held_eq_false.mpr fun version member _ => ?_
  rcases alone version member with status | status | status <;> simp [status, Status.heldByOther]

theorem Alone.delete (alone : Alone tx table) (doomed : Row → Bool) :
    Alone tx (delete tx table doomed) := by
  intro version member
  obtain ⟨old, inside, _, changed⟩ := mem_alter.mp member
  split_ifs at changed
  · rcases alone old inside with status | status | status <;>
      simp_all [Status.delete]
  · exact Option.some.inj changed ▸ alone old inside

theorem view_insert (row : Row) : view tx (insert tx table row) = view tx table ++ [row] := by
  simp [Versions.view, Versions.insert, Status.seenBy]

theorem Alone.quiet_commit (alone : Alone tx table) : Quiet (commit tx table) := by
  intro version member
  obtain ⟨old, inside, _, changed⟩ := mem_alter.mp member
  rcases alone old inside with status | status | status <;> simp_all [Status.commit]

theorem Alone.quiet_rollback (alone : Alone tx table) : Quiet (rollback tx table) := by
  intro version member
  obtain ⟨old, inside, _, changed⟩ := mem_alter.mp member
  rcases alone old inside with status | status | status <;> simp_all [Status.rollback]

omit [DecidableEq Tx] in
theorem Alone.insert (alone : Alone tx table) (row : Row) : Alone tx (insert tx table row) := by
  intro version member
  rcases mem_insert.mp member with old | rfl
  · exact alone version old
  · exact .inr (.inl rfl)

omit [DecidableEq Tx] in
theorem Alone.update (alone : Alone tx table) (change : Row → Row) :
    Alone tx (Versions.update change table) := by
  intro version member
  obtain ⟨old, inside, _, same⟩ := mem_update member
  exact same ▸ alone old inside

theorem Alone.apply (alone : Alone tx table) (statement : Statement Row) :
    Alone tx (statement.apply tx table) := by
  cases statement with
  | keep => exact alone
  | insert row => exact alone.insert row
  | delete doomed => exact alone.delete doomed
  | commit => exact alone.quiet_commit.inserting.alone
  | rollback => exact alone.quiet_rollback.inserting.alone

omit [DecidableEq Tx] in
theorem rows_alter (shows : Status Tx → Bool) (change : Version Tx Row → Option (Status Tx)) :
    ((alter change table).filter (shows ·.status)).map (·.row) =
      (table.filter fun version => (change version).any shows).map (·.row) := by
  induction table with
  | nil => rfl
  | cons version rest ih =>
    simp only [alter] at ih ⊢
    cases changed : change version with
    | none => simpa [changed] using ih
    | some status =>
      cases shown : shows status with
      | false => simpa [changed, shown] using ih
      | true => simpa [changed, shown] using ih

theorem Alone.view_delete (alone : Alone tx table) (doomed : Row → Bool) :
    Versions.view tx (Versions.delete tx table doomed) =
      (Versions.view tx table).filter fun row => !doomed row := by
  rw [Versions.view, Versions.delete, rows_alter, Versions.view, List.filter_map, List.filter_filter]
  refine congrArg _ (List.filter_congr fun version member => ?_)
  cases condemned : doomed version.row with
  | false => simp [condemned]
  | true =>
    rcases alone version member with status | status | status <;>
      simp [condemned, status, Status.delete, Status.seenBy]

omit [DecidableEq Tx] in
theorem committed_insert (row : Row) :
    Versions.committed (insert tx table row) = Versions.committed table := by
  simp [Versions.committed, Versions.insert, Status.isCommitted]

theorem Quiet.view (quiet : Quiet table) (tx : Tx) :
    Versions.view tx table = Versions.committed table := by
  have seen : table.filter (fun version => version.status.isCommitted) = table := by
    refine List.filter_eq_self.mpr fun version member => ?_
    simp [quiet version member, Status.isCommitted]
  rw [quiet.inserting.view, Versions.committed, seen]

theorem Alone.committed_commit (alone : Alone tx table) :
    Versions.committed (commit tx table) = Versions.view tx table := by
  rw [Versions.committed, Versions.commit, rows_alter, Versions.view]
  refine congrArg _ (List.filter_congr fun version member => ?_)
  rcases alone version member with status | status | status <;>
    simp [status, Status.commit, Status.seenBy, Status.isCommitted]

theorem Alone.committed_rollback (alone : Alone tx table) :
    Versions.committed (rollback tx table) = Versions.committed table := by
  rw [Versions.committed, Versions.rollback, rows_alter, Versions.committed]
  refine congrArg _ (List.filter_congr fun version member => ?_)
  rcases alone version member with status | status | status <;>
    simp [status, Status.rollback, Status.isCommitted]

omit [DecidableEq Tx] in
theorem Quiet.update (quiet : Quiet table) (change : Row → Row) :
    Quiet (Versions.update change table) := by
  intro version member
  obtain ⟨old, inside, _, same⟩ := mem_update member
  exact same.trans (quiet old inside)

omit [DecidableEq Tx] in
theorem committed_update (change : Row → Row) :
    Versions.committed (Versions.update change table) = (Versions.committed table).map change := by
  simp [Versions.committed, Versions.update, List.filter_map, Function.comp_def]

end Alone

end Versions
