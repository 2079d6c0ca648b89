import SourceVerification.Project
import SourceVerification.Words

set_option autoImplicit false

namespace SourceVerification

structure HttpError where
  status : Nat
  message : String
deriving DecidableEq

inductive TargetType
  | library
  | executable
  | kernel
  | accountComponent
  | note
  | transactionScript
deriving DecidableEq

inductive DebugBuild
  | built (masp : Masp) (commitment : Word) (cargoMidenVersion : Option String)
  | failed (error : String)

structure BuiltPackage where
  -- The artifact, which travels base64-encoded.
  masp : Masp
  commitment : Word
  kind : TargetType
  manifest : Json
  readOnly : Json
  -- The sources plus the lockfile the build used.
  files : Files

structure VerifyResponse extends BuiltPackage where
  verified : Bool
  -- The resource's root as the verifier read it on chain.
  root : Word
  cargoMidenVersion : Option String
  debug : Option DebugBuild

inductive Kind
  | account
  | note
deriving DecidableEq

inductive Resource
  | account (accountId : String)
  | note (noteId : String)

def Resource.kind : Resource → Kind
  | .account _ => .account
  | .note _ => .note

def Resource.id : Resource → String
  | .account accountId => accountId
  | .note noteId => noteId

end SourceVerification
