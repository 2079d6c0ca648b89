import SourceVerification.Compile.Verification

set_option autoImplicit false

namespace SourceVerification.Compile

-- In the order they claim procedures: a full wallet claims `NoteCreator`'s only one first.
def standardComponentNames : List String :=
  ["BasicWallet", "NoteCreator", "FungibleFaucet", "CodeInspection", "Authority",
    "RoleBasedAccessControl", "Ownable2Step", "AuthSingleSig", "AuthGuardedMultisig", "AuthMultisig",
    "AuthMultisigSmart", "AuthNoAuth", "AuthNetworkAccount", "AuthTxFeeCollector", "SchemaCommitment"]

/-- A component is detected when all its roots are still unclaimed, and then claims them. -/
def detectComponents : List (String × List Word) → List Word → List (String × List Word)
  | [], _ => []
  | (name, roots) :: rest, unclaimed =>
    if roots.all (· ∈ unclaimed) then
      (name, roots) :: detectComponents rest (unclaimed.filter (· ∉ roots))
    else detectComponents rest unclaimed

-- `roots` are those of miden-standards' components.
def standardAccountComponents (roots : String → List Word) (procedures : List Word) :
    List (String × List Word) :=
  detectComponents (standardComponentNames.map fun name => (name, roots name)) procedures

def unclaimedBy (detected : List (String × List Word)) (procedures : List Word) : List Word :=
  procedures.filter fun root => detected.all (root ∉ ·.2)

theorem unclaimedBy_cons (first : String × List Word) (detected : List (String × List Word))
    (procedures : List Word) :
    unclaimedBy detected (procedures.filter (· ∉ first.2)) = unclaimedBy (first :: detected) procedures := by
  simp only [unclaimedBy, List.filter_filter, List.all_cons, Bool.and_comm]

theorem detectComponents_append (before after : List (String × List Word)) (procedures : List Word) :
    detectComponents (before ++ after) procedures = detectComponents before procedures ++
      detectComponents after (unclaimedBy (detectComponents before procedures) procedures) := by
  induction before generalizing procedures with
  | nil => simp [detectComponents, unclaimedBy]
  | cons first rest ih =>
    obtain ⟨name, roots⟩ := first
    by_cases free : roots.all (· ∈ procedures)
    · simp only [List.cons_append, detectComponents, free, if_true, ih]
      rw [← unclaimedBy_cons (name, roots)]
    · simp only [List.cons_append, detectComponents, free, if_false, ih, Bool.false_eq_true]

theorem mem_detectComponents {catalogue : List (String × List Word)} {procedures : List Word}
    {component : String × List Word} (detected : component ∈ detectComponents catalogue procedures) :
    component ∈ catalogue ∧ ∀ root ∈ component.2, root ∈ procedures := by
  induction catalogue generalizing procedures with
  | nil => cases detected
  | cons first rest ih =>
    obtain ⟨name, roots⟩ := first
    simp only [detectComponents] at detected
    split at detected
    next free =>
      rcases List.mem_cons.mp detected with rfl | later
      · exact ⟨List.mem_cons_self .., fun root member => by simpa using List.all_eq_true.mp free root member⟩
      · obtain ⟨inside, held⟩ := ih later
        exact ⟨List.mem_cons_of_mem _ inside, fun root member => List.mem_of_mem_filter (held root member)⟩
    next =>
      obtain ⟨inside, held⟩ := ih detected
      exact ⟨List.mem_cons_of_mem _ inside, held⟩

theorem detectComponents_pairwise (catalogue : List (String × List Word)) (procedures : List Word) :
    (detectComponents catalogue procedures).Pairwise fun earlier later =>
      ∀ root ∈ later.2, root ∉ earlier.2 := by
  induction catalogue generalizing procedures with
  | nil => exact List.Pairwise.nil
  | cons first rest ih =>
    obtain ⟨name, roots⟩ := first
    simp only [detectComponents]
    split
    next =>
      refine List.pairwise_cons.mpr ⟨fun later detected root member => ?_, ih _⟩
      have left := (mem_detectComponents detected).2 root member
      simpa using (List.mem_filter.mp left).2
    next => exact ih procedures

theorem detectComponents_cons {component : String × List Word} {procedures : List Word}
    (held : ∀ root ∈ component.2, root ∈ procedures) {detected : List (String × List Word)}
    (free : ∀ earlier ∈ detected, ∀ root ∈ component.2, root ∉ earlier.2)
    (after : List (String × List Word)) :
    ∃ later, detectComponents (component :: after) (unclaimedBy detected procedures) = component :: later := by
  obtain ⟨name, roots⟩ := component
  have unclaimed : roots.all (· ∈ unclaimedBy detected procedures) := by
    refine List.all_eq_true.mpr fun root member => decide_eq_true (List.mem_filter.mpr ⟨held root member, ?_⟩)
    exact List.all_eq_true.mpr fun earlier inside => decide_eq_true (free earlier inside root member)
  exact ⟨_, by simp only [detectComponents, unclaimed, if_true]; rfl⟩

/-- The components detected in an account, of any catalogue, claim disjoint procedures of the account;
one is missed with all its procedures in the account only where an earlier one claimed some of them. -/
theorem detectComponents_greedy (catalogue : List (String × List Word)) (procedures : List Word) :
    ((detectComponents catalogue procedures).Pairwise fun earlier later =>
        ∀ root ∈ later.2, root ∉ earlier.2) ∧
      (∀ component ∈ detectComponents catalogue procedures,
        component ∈ catalogue ∧ ∀ root ∈ component.2, root ∈ procedures) ∧
      ∀ before component after, catalogue = before ++ component :: after →
        (∀ root ∈ component.2, root ∈ procedures) →
          (∃ later, detectComponents catalogue procedures =
            detectComponents before procedures ++ component :: later) ∨
          ∃ earlier ∈ detectComponents before procedures,
            earlier ∈ detectComponents catalogue procedures ∧ ∃ root ∈ component.2, root ∈ earlier.2 := by
  refine ⟨detectComponents_pairwise catalogue procedures, fun _ => mem_detectComponents, ?_⟩
  rintro before component after rfl held
  rw [detectComponents_append]
  by_cases claimed : ∃ earlier ∈ detectComponents before procedures, ∃ root ∈ component.2, root ∈ earlier.2
  · obtain ⟨earlier, detected, root⟩ := claimed
    exact .inr ⟨earlier, detected, List.mem_append_left _ detected, root⟩
  · left
    have free : ∀ earlier ∈ detectComponents before procedures, ∀ root ∈ component.2, root ∉ earlier.2 :=
      fun earlier detected root member taken => claimed ⟨earlier, detected, root, member, taken⟩
    obtain ⟨later, same⟩ := detectComponents_cons held free after
    exact ⟨later, by rw [same]⟩

section

variable (client : MidenClient)

/-- miden-verifier lists the package among the account's components. -/
def Reported (account : Account) (package : Package) : Prop :=
  ∃ components, verifyAccountComponent client account package =
      .ok (.account account.commitment components) ∧
    customTag (client.display package.dependencyCommitment) ∈ components

def HasCustomCode (account : Account) : Prop :=
  ∃ procedure ∈ account.procedures,
    (client.fromProcedures account.procedures).standard procedure = false

def IsCustomCode (roots : String → List Word) (account : Account) (procedure : Word) : Prop :=
  procedure ∈ account.procedures ∧
    ((client.fromProcedures account.procedures).standard procedure = false ∨
      ∀ component ∈ standardAccountComponents roots account.procedures, procedure ∉ component.2)

def AccountsForCustomCode (roots : String → List Word) (account : Account) (package : Package) :
    Prop :=
  ∃ procedure ∈ package.componentModelProcedures, IsCustomCode client roots account procedure.digest

theorem reported_of_held {account : Account} {package : Package} (custom : HasCustomCode client account)
    (exporting : package.componentModelProcedures ≠ [])
    (held : ∀ procedure ∈ package.componentModelProcedures,
      procedure.digest ∈ account.procedures) : Reported client account package := by
  have hasCustomCode := (hasCustomCode_iff (client.fromProcedures account.procedures)).mpr custom
  have exports : package.exports ≠ [] := by
    intro empty
    exact exporting (by simp [Package.componentModelProcedures, Package.procedureExports, empty])
  have verified : (!package.componentModelProcedures.isEmpty &&
      package.componentModelProcedures.all fun procedure =>
        account.procedures.contains procedure.digest) = true := by
    simpa using ⟨exporting, held⟩
  unfold Reported verifyAccountComponent
  simp only [hasCustomCode, exports, verified, if_true, if_false]
  exact ⟨_, rfl, List.mem_append_right _ (List.mem_singleton_self _)⟩

theorem reported_iff (account : Account) (package : Package) :
    Reported client account package ↔ HasCustomCode client account ∧
      package.componentModelProcedures ≠ [] ∧
      ∀ procedure ∈ package.componentModelProcedures, procedure.digest ∈ account.procedures := by
  constructor
  · rintro ⟨components, ran, reported⟩
    obtain ⟨_, same, holds⟩ := verifyAccountComponent_tagged client
      (client.display package.dependencyCommitment) ran
    obtain ⟨-, rfl⟩ := MidenVerifierOutput.account.inj same
    exact holds reported
  · rintro ⟨custom, exporting, held⟩
    exact reported_of_held client custom exporting held

end

def receiveAsset : Word :=
  ⟨"0xaaaaaaaaaaaaaaaaaaaaaaaaaaaaaaaaaaaaaaaaaaaaaaaaaaaaaaaaaaaaaaaa", by decide⟩

def moveAssetToNote : Word :=
  ⟨"0xbbbbbbbbbbbbbbbbbbbbbbbbbbbbbbbbbbbbbbbbbbbbbbbbbbbbbbbbbbbbbbbb", by decide⟩

def walletRoots : List Word := [receiveAsset, moveAssetToNote]

def isWalletProcedure (procedures : List Word) (procedure : Word) : Bool :=
  walletRoots.all (· ∈ procedures) && walletRoots.contains procedure

def customProcedures (procedures : List Word) : List Word :=
  procedures.filter fun procedure => !isWalletProcedure procedures procedure

theorem mem_customProcedures {procedures : List Word} {procedure : Word} :
    procedure ∈ customProcedures procedures ↔
      procedure ∈ procedures ∧ isWalletProcedure procedures procedure = false := by
  simp [customProcedures]

def walletOrCustomInterface (procedures : List Word) : List AccountComponentInterface :=
  (if walletRoots.all (· ∈ procedures) then [.basicWallet] else []) ++
    if customProcedures procedures = [] then [] else [.custom (customProcedures procedures)]

theorem mem_walletOrCustomInterface {procedures : List Word} {component : AccountComponentInterface}
    (member : component ∈ walletOrCustomInterface procedures) :
    component = .basicWallet ∨
      component = .custom (customProcedures procedures) ∧ customProcedures procedures ≠ [] := by
  rcases List.mem_append.mp member with wallet | custom
  · split at wallet
    · exact .inl (List.mem_singleton.mp wallet)
    · cases wallet
  · split at custom
    · cases custom
    · rename_i nonempty
      exact .inr ⟨List.mem_singleton.mp custom, nonempty⟩

def walletOrCustom (procedures : List Word) : Classification procedures where
  interface := walletOrCustomInterface procedures
  standard := isWalletProcedure procedures
  leftover procedure member := by
    constructor
    · intro custom
      have inside := mem_customProcedures.mpr ⟨member, custom⟩
      refine ⟨.custom (customProcedures procedures), List.mem_append_right _ ?_, inside⟩
      rw [if_neg (List.ne_nil_of_mem inside)]
      exact List.mem_singleton_self _
    · rintro ⟨component, listed, inside⟩
      rcases mem_walletOrCustomInterface listed with rfl | ⟨rfl, _⟩
      · cases inside
      · exact (mem_customProcedures.mp inside).2
  nonempty component listed custom := by
    rcases mem_walletOrCustomInterface listed with rfl | ⟨rfl, nonempty⟩
    · cases custom
    · obtain ⟨procedure, inside⟩ := List.exists_mem_of_ne_nil _ nonempty
      exact ⟨procedure, (mem_customProcedures.mp inside).1, inside⟩

def walletClient : MidenClient := { counterClient with fromProcedures := walletOrCustom }

-- The roots `miden-import` knows; no other standard component's are in the account below.
def walletComponentRoots (name : String) : List Word :=
  if name = "BasicWallet" then walletRoots else [counterCode]

def walletAccount : Account where
  procedures := [receiveAsset, moveAssetToNote, counterRoot]
  commitment := counterCode

def receivePackage : Package where
  exports := [.procedure ⟨"::receiver::receive_asset", receiveAsset, some .componentModel⟩]
  dependencyCommitment := counterCommitment

theorem standard_procedures_reported :
    ¬ ∀ (client : MidenClient) (roots : String → List Word) (account : Account) (package : Package),
      HasCustomCode client account → Reported client account package →
        AccountsForCustomCode client roots account package := by
  intro accountsFor
  have custom : HasCustomCode walletClient walletAccount :=
    ⟨counterRoot, by decide, by decide⟩
  have reported : Reported walletClient walletAccount receivePackage :=
    reported_of_held walletClient custom (List.cons_ne_nil _ _) (by decide)
  obtain ⟨procedure, exported, -, unclaimed⟩ :=
    accountsFor walletClient walletComponentRoots walletAccount receivePackage custom reported
  obtain rfl := List.mem_singleton.mp exported
  -- The verifier and the import both leave `receive_asset` to the wallet.
  rcases unclaimed with unclassified | undetected
  · exact absurd unclassified (by decide)
  · exact undetected ("BasicWallet", walletRoots) (by decide) (by decide)

end SourceVerification.Compile
