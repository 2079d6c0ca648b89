import SourceVerification.OpenProject

set_option autoImplicit false

namespace SourceVerification

theorem normalizeEntrypoint_eq_self {dir : String} :
    normalizeEntrypoint (some (.string dir)) = some dir ↔ dir = "." ∨ isProjectRelativePath dir = true := by
  refine ⟨normalizeEntrypoint_eq_some, ?_⟩
  rintro (rfl | clean)
  · rfl
  · exact normalizeEntrypoint_clean clean

theorem join_cargoToml_ne (dir : String) : dir ++ "/" ++ "Cargo.toml" ≠ "Cargo.toml" := by
  intro same
  have length := congrArg (·.toList.length) same
  simp [String.toList_append] at length

theorem cargoTomlDir_join (dir : String) : cargoTomlDir (dir ++ "/" ++ "Cargo.toml") = some dir := by
  have split : (dir ++ "/" ++ "Cargo.toml").toList = dir.toList ++ "/Cargo.toml".toList := by
    simp [String.toList_append]
  have suffix : "/Cargo.toml".toList.isSuffixOf (dir ++ "/" ++ "Cargo.toml").toList = true := by
    rw [List.isSuffixOf_iff_suffix, split]
    exact List.suffix_append _ _
  rw [cargoTomlDir, if_neg (join_cargoToml_ne dir), if_pos suffix, split, List.length_append,
    Nat.add_sub_cancel, List.take_left', String.ofList_toList]
  rfl

theorem eq_join_of_cargoTomlDir {path dir : String} (below : path ≠ "Cargo.toml")
    (found : cargoTomlDir path = some dir) : path = dir ++ "/" ++ "Cargo.toml" := by
  rw [cargoTomlDir, if_neg below] at found
  split at found
  next suffix =>
    obtain ⟨front, split⟩ := List.isSuffixOf_iff_suffix.mp suffix
    rw [← split, List.length_append, Nat.add_sub_cancel, List.take_left' rfl, Option.some.injEq] at found
    subst found
    apply String.toList_injective
    rw [← split]
    simp [String.toList_append]
  next => cases found

theorem cargoTomlDir_eq_some {path dir : String} (clean : isProjectRelativePath path = true) :
    cargoTomlDir path = some dir ↔
      normalizeEntrypoint (some (.string dir)) = some dir ∧ projectPath dir "Cargo.toml" = path := by
  rw [normalizeEntrypoint_eq_self]
  by_cases root : path = "Cargo.toml"
  · subst root
    constructor
    · intro found
      obtain rfl : "." = dir := by simpa [cargoTomlDir] using found
      exact ⟨.inl rfl, rfl⟩
    · rintro ⟨-, same⟩
      unfold projectPath at same
      split at same
      next dot => rw [dot]; rfl
      next => exact absurd same (join_cargoToml_ne dir)
  · constructor
    · intro found
      obtain rfl := eq_join_of_cargoTomlDir root found
      obtain ⟨inside, -⟩ := isProjectRelativePath_join.mp clean
      refine ⟨.inr inside, if_neg ?_⟩
      rintro rfl
      exact absurd inside (by decide)
    · rintro ⟨-, rfl⟩
      unfold projectPath at root ⊢
      split
      next dot => simp [dot] at root
      next => exact cargoTomlDir_join dir

theorem lookup_eq_some_iff {files : Files} (distinct : (files.map (·.1)).Nodup) {path content : String} :
    files.lookup path = some content ↔ (path, content) ∈ files := by
  induction files with
  | nil => simp
  | cons file rest ih =>
    obtain ⟨name, text⟩ := file
    obtain ⟨absent, later⟩ := List.nodup_cons.mp distinct
    rw [List.lookup_cons, List.mem_cons, Prod.mk.injEq, ← ih later]
    by_cases same : path = name
    · subst same
      have gone : rest.lookup path ≠ some content := by
        intro found
        have member : (path, content) ∈ rest := (ih later).mp found
        exact absent (List.mem_map.mpr ⟨_, member, rfl⟩)
      simp [gone, eq_comm]
    · have differs : (path == name) = false := by simpa using same
      simp [differs, same]

section

variable (parse : String → Option (List (String × Json)))

/-- `openProject` opens the files at the normalized entrypoint, as a project of the name. -/
def OpensAs (files : Files) (name dir : String) : Prop :=
  normalizeEntrypoint (some (.string dir)) = some dir ∧
    ∃ project, openProject parse (some (filesJson files)) (some (.string dir)) = .ok project ∧
      project.name = name

variable {parse} {files : Files} {name dir : String}

theorem filesJson_injective {files other : Files} (same : filesJson files = filesJson other) :
    files = other := by
  rw [← fileContents_files files, ← fileContents_files other]
  exact congrArg fileContents (Json.object.inj same)

theorem opensAs_iff (clean : ∀ file ∈ files, isProjectRelativePath file.1 = true) :
    OpensAs parse files name dir ↔ normalizeEntrypoint (some (.string dir)) = some dir ∧
      (∃ cargoToml, files.lookup (projectPath dir "Cargo.toml") = some cargoToml ∧
        readCargoPackage parse cargoToml = .named name) ∧
      (files.lookup (projectPath dir "miden-project.toml")).isSome := by
  constructor
  · rintro ⟨normal, project, opened, rfl⟩
    obtain ⟨same, normalized, checked⟩ := openProject_eq_ok opened
    obtain rfl := filesJson_injective (Option.some.inj same)
    obtain rfl : dir = project.entrypoint := Option.some.inj (normal.symm.trans normalized)
    exact ⟨normal, checked.cargoToml, checked.midenProject⟩
  · rintro ⟨normal, cargoToml, midenProject⟩
    have checked : Opened parse { files := files, entrypoint := dir, name := name } :=
      ⟨clean, normal, cargoToml, midenProject⟩
    exact ⟨normal, _, checked.reopens normal, rfl⟩

theorem cargoPackageName_eq_some {cargoToml : String} :
    cargoPackageName parse cargoToml = some name ↔ readCargoPackage parse cargoToml = .named name := by
  unfold cargoPackageName
  split
  next named => simp [named]
  next unnamed => simpa using unnamed name

theorem mem_entrypoints_iff_opensAs (distinct : (files.map (·.1)).Nodup)
    (clean : ∀ file ∈ files, isProjectRelativePath file.1 = true) :
    dir ∈ entrypoints parse files name ↔ OpensAs parse files name dir := by
  rw [opensAs_iff clean, entrypoints, List.mem_filterMap]
  constructor
  · rintro ⟨⟨path, cargoToml⟩, member, found⟩
    simp only [Option.filter_eq_some_iff, Bool.and_eq_true, beq_iff_eq] at found
    obtain ⟨located, midenProject, named⟩ := found
    obtain ⟨normal, rfl⟩ := (cargoTomlDir_eq_some (clean _ member)).mp located
    exact ⟨normal, ⟨cargoToml, (lookup_eq_some_iff distinct).mpr member,
      cargoPackageName_eq_some.mp named⟩, midenProject⟩
  · rintro ⟨normal, ⟨cargoToml, found, named⟩, midenProject⟩
    have member := (lookup_eq_some_iff distinct).mp found
    refine ⟨_, member, ?_⟩
    simp only [Option.filter_eq_some_iff, Bool.and_eq_true, beq_iff_eq]
    exact ⟨(cargoTomlDir_eq_some (clean _ member)).mpr ⟨normal, rfl⟩, midenProject,
      cargoPackageName_eq_some.mpr named⟩

-- No two keys of a map are the `Cargo.toml` of one directory.
theorem entrypoints_nodup (distinct : (files.map (·.1)).Nodup)
    (clean : ∀ file ∈ files, isProjectRelativePath file.1 = true) :
    (entrypoints parse files name).Nodup := by
  refine List.pairwise_filterMap.mpr ((List.pairwise_map.mp distinct).imp_of_mem ?_)
  rintro first second inside later apart dir found other again rfl
  simp only [Option.filter_eq_some_iff] at found again
  obtain ⟨-, here⟩ := (cargoTomlDir_eq_some (clean _ inside)).mp found.1
  obtain ⟨-, there⟩ := (cargoTomlDir_eq_some (clean _ later)).mp again.1
  exact apart (here.symm.trans there)

theorem eq_singleton_iff {α : Type} {items : List α} (distinct : items.Nodup) {item : α} :
    items = [item] ↔ item ∈ items ∧ ∀ other ∈ items, other = item := by
  constructor
  · rintro rfl
    simp
  · rintro ⟨member, only⟩
    cases items with
    | nil => cases member
    | cons first rest =>
      obtain rfl := only first (List.mem_cons_self ..)
      have empty : rest = [] := by
        refine List.eq_nil_iff_forall_not_mem.mpr fun other inside => ?_
        have same := only other (List.mem_cons_of_mem _ inside)
        exact (List.nodup_cons.mp distinct).1 (same ▸ inside)
      rw [empty]

theorem inferEntrypoint_eq_some (distinct : (files.map (·.1)).Nodup)
    (clean : ∀ file ∈ files, isProjectRelativePath file.1 = true) :
    inferEntrypoint parse files name = some dir ↔
      OpensAs parse files name dir ∧ ∀ other, OpensAs parse files name other → other = dir := by
  simp only [← mem_entrypoints_iff_opensAs distinct clean]
  rw [← eq_singleton_iff (entrypoints_nodup distinct clean)]
  unfold inferEntrypoint
  split
  next entrypoint same => simp [same]
  next several => simpa using several dir

end

/-- `inferEntrypoint` answers the only entrypoint that opens under the name, and so the one a project
was opened at, unless another of the same files does. -/
theorem inferEntrypoint_inverse (parse : String → Option (List (String × Json))) :
    (∀ files name dir, (files.map (·.1)).Nodup →
      (∀ file ∈ files, isProjectRelativePath file.1 = true) →
        (inferEntrypoint parse files name = some dir ↔
          OpensAs parse files name dir ∧ ∀ other, OpensAs parse files name other → other = dir)) ∧
      ∀ files entrypoint project, openProject parse files entrypoint = .ok project →
        (project.files.map (·.1)).Nodup →
          inferEntrypoint parse project.files project.name = some project.entrypoint ∨
            inferEntrypoint parse project.files project.name = none ∧
              ∃ other ≠ project.entrypoint, OpensAs parse project.files project.name other := by
  refine ⟨fun files name dir distinct clean => inferEntrypoint_eq_some distinct clean, ?_⟩
  intro files entrypoint project opened distinct
  obtain ⟨-, -, checked⟩ := openProject_eq_ok opened
  have infers {dir : String} : inferEntrypoint parse project.files project.name = some dir ↔ _ :=
    inferEntrypoint_eq_some distinct checked.paths
  have here : OpensAs parse project.files project.name project.entrypoint :=
    ⟨checked.normal, project, checked.reopens checked.normal, rfl⟩
  by_cases only : ∀ other, OpensAs parse project.files project.name other → other = project.entrypoint
  · exact .inl (infers.mpr ⟨here, only⟩)
  · push Not at only
    obtain ⟨other, opens, differs⟩ := only
    refine .inr ⟨?_, other, differs, opens⟩
    refine Option.eq_none_iff_forall_ne_some.mpr fun dir found => ?_
    obtain ⟨-, unique⟩ := infers.mp found
    exact differs ((unique other opens).trans (unique _ here).symm)

def counterWithDependency : Files :=
  [("Cargo.toml", "counter"), ("miden-project.toml", ""), ("math/Cargo.toml", "math"),
    ("math/miden-project.toml", "")]

def nameOnly (text : String) : Option (List (String × Json)) :=
  some [("package", .object [("name", .string text)])]

theorem counterWithDependency_inferred :
    (OpensAs nameOnly counterWithDependency "counter" "." ∧
      ∀ other, OpensAs nameOnly counterWithDependency "counter" other → other = ".") ∧
      (inferEntrypoint nameOnly counterWithDependency "math" = some "math" ∨
        inferEntrypoint nameOnly counterWithDependency "math" = none ∧
          ∃ other ≠ "math", OpensAs nameOnly counterWithDependency "math" other) :=
  ⟨((inferEntrypoint_inverse nameOnly).1 counterWithDependency "counter" "." (by decide) (by decide)).mp
      (by decide),
    (inferEntrypoint_inverse nameOnly).2 (some (filesJson counterWithDependency)) (some (.string "math/"))
      { files := counterWithDependency, entrypoint := "math", name := "math" } (by rfl) (by decide)⟩

end SourceVerification
