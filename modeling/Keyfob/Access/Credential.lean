import Keyfob.Store.Basic

/-!
# Credentials

A credential is a name and a secret. The list of them is kept in the store under numbered keys
and a count, and a copy is held in memory. An update replaces the whole list: it writes the
entries, removes the keys past them, and writes the count last.
-/
namespace Keyfob

/-- A name and its secret. -/
structure Credential where
  /-- What the credential is for. -/
  name : Text
  /-- What is typed for it. -/
  secret : Text
deriving DecidableEq

namespace Credential

/-- The most credentials that are kept. -/
def capacity : Nat := 10

/-- A credential as one line of an export. -/
def line (credential : Credential) : Text := credential.name ++ "," ++ credential.secret

/-- Fields two by two; a last one without a partner is dropped. -/
def pairs : List Text → List Credential
  | name :: secret :: rest => ⟨name, secret⟩ :: pairs rest
  | _ => []

/-- The credentials that comma-separated fields spell: names and secrets in turn, without the
blanks around them. Pairs with an empty half are passed over, and no more are read than can be
kept. -/
def parse (data : Text) : List Credential :=
  ((pairs ((Text.splitAll ',' data).map Text.trim)).filter fun credential =>
    !credential.name.isEmpty && !credential.secret.isEmpty).take capacity

/-- The namespace that holds the credentials. -/
def space : Text := "devstore"

/-- The key of the count. -/
def countKey : Text := "count"

/-- The key of a name. -/
def nameKey (place : Nat) : Text := "device_".toList ++ Text.ofNat place

/-- The key of a secret. -/
def secretKey (place : Nat) : Text := "password_".toList ++ Text.ofNat place

/-- The changes that write a list from a place on. -/
def writes : Nat → List Credential → List KeyValueStore.Change
  | _, [] => []
  | place, credential :: rest =>
    .set space (nameKey place) (.string credential.name) ::
      .set space (secretKey place) (.string credential.secret) :: writes (place + 1) rest

/-- The changes that remove what is kept from a place on. -/
def removals (place : Nat) : List KeyValueStore.Change :=
  ((List.range capacity).drop place).flatMap fun place =>
    [.remove space (nameKey place), .remove space (secretKey place)]

/-- The changes that replace what is kept by a list. -/
def replacement (list : List Credential) : List KeyValueStore.Change :=
  writes 0 list ++ removals list.length ++
    [.set space countKey (.int (Int64.ofNat list.length))]

end Credential

/-- The list of credentials as it is held in memory. -/
structure Credentials where
  /-- The credentials in order. -/
  list : List Credential := []
deriving DecidableEq

namespace Credentials

variable {κ : Type} [KeyValueStore κ]

/-- How many credentials the store says it has, within what can be kept. -/
def storedCount (store : κ) : Nat :=
  let count := (KeyValueStore.getInt? store Credential.space Credential.countKey).getD 0
  (Text.clamp 0 Credential.capacity count.toInt).toNat

/-- The credential that is stored at a place, with empty texts for what is missing. -/
def storedAt (store : κ) (place : Nat) : Credential :=
  let field (key : Text) : Text := (KeyValueStore.getString? store Credential.space key).getD []
  ⟨field (Credential.nameKey place), field (Credential.secretKey place)⟩

/-- The credentials that are stored. -/
def load (store : κ) : Credentials := ⟨(List.range (storedCount store)).map (storedAt store)⟩

/-- Replace all credentials, of which no more are taken than can be kept. The list in memory
changes only when everything is stored. -/
def replaceAll (credentials : Credentials) (list : List Credential) (store : κ) :
    Except StoreError Unit × Credentials × κ :=
  let kept := list.take Credential.capacity
  match KeyValueStore.applyAll (Credential.replacement kept) store with
  | (.ok (), store) => (.ok (), ⟨kept⟩, store)
  | (.error e, store) => (.error e, credentials, store)

/-- Replace all credentials by those that comma-separated fields spell. -/
def update (credentials : Credentials) (data : Text) (store : κ) :
    Except StoreError Unit × Credentials × κ :=
  credentials.replaceAll (Credential.parse data) store

/-- The names in order. -/
def names (credentials : Credentials) : List Text := credentials.list.map (·.name)

/-- The lines of an export. -/
def lines (credentials : Credentials) : List Text := credentials.list.map Credential.line

end Credentials

end Keyfob
