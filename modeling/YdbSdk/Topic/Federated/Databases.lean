import Mathlib

namespace YdbSdk.Topic.Federated

/-! # The databases of a federation

The observer publishes the databases of the federation (`TFederatedDbState`); the write
session chooses one of them, the read session reads all that are selected.  Texts are
lists of characters.
-/

abbrev Text := List Char

inductive DatabaseStatus where
  | unspecified
  | available
  | readOnly
  | unavailable
deriving DecidableEq

structure DbInfo where
  name : Text := []
  path : Text := []
  id : Text := []
  endpoint : Text := []
  location : Text := []
  status : DatabaseStatus := .available
  weight : Int := 0
deriving DecidableEq

inductive EStatus where
  | success
  | badRequest
  | unavailable
  | notFound
  | transportUnavailable
  | other (code : Nat)
deriving DecidableEq

structure FederatedDbState where
  status : EStatus := .success
  selfLocation : Text := []
  dbInfos : List DbInfo := []
deriving DecidableEq

def asciiEqualsIgnoreCase (left right : Text) : Bool :=
  left.map Char.toLower == right.map .toLower

/-! ## The choice of the write session -/

/-- What the choice reads of the settings; `hash` is the hash of the path and the
producer id. -/
structure SelectSettings where
  preferredDatabase : Option Text := none
  allowFallback : Bool := true
  hash : Nat := 0

/-- `unreachable` is the mark behind the loop. -/
inductive Selection where
  | database (db : DbInfo)
  | failed (status : EStatus)
  | unreachable
deriving DecidableEq

/-- A `uint64_t` after an `int64_t` was added to it. -/
def addWeight (sum : Nat) (weight : Int) : Nat := ((sum + weight) % 2 ^ 64).toNat

def pickByWeight (hashValue : Nat) : Nat → List DbInfo → Selection
  | _, [] => .unreachable
  | borderWeight, db :: rest =>
    let borderWeight := addWeight borderWeight db.weight
    if hashValue < borderWeight then .database db else pickByWeight hashValue borderWeight rest

def selectDatabaseByHashImpl (settings : SelectSettings) (dbInfos : List DbInfo) : Selection :=
  let available := dbInfos.filter fun db => db.status = .available
  let totalWeight := (available.map DbInfo.weight).foldl addWeight 0
  if available.isEmpty || totalWeight = 0 then .failed .notFound
  else
    let sorted := available.mergeSort fun left right => decide (left.name ≤ right.name)
    pickByWeight (settings.hash % totalWeight) 0 sorted

def selectDatabaseImpl (settings : SelectSettings) (dbInfos : List DbInfo) (selfLocation : Text) :
    Selection :=
  let chosen (db : DbInfo) : Selection :=
    if db.status = .available then .database db
    else if settings.allowFallback then selectDatabaseByHashImpl settings dbInfos
    else .failed .unavailable
  match settings.preferredDatabase with
  | some preferred =>
    match dbInfos.find? fun db =>
      asciiEqualsIgnoreCase preferred db.name || asciiEqualsIgnoreCase preferred db.id with
    | none => .failed .notFound
    | some db => chosen db
  | none =>
    match dbInfos.find? fun db => asciiEqualsIgnoreCase selfLocation db.location with
    | none =>
      if settings.allowFallback then selectDatabaseByHashImpl settings dbInfos
      else .failed .notFound
    | some db => chosen db

def databasesAreSame (db : DbInfo) : Option DbInfo → Bool
  | none => false
  | some current =>
    db.name == current.name && db.path == current.path && db.endpoint == current.endpoint

end YdbSdk.Topic.Federated
