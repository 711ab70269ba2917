import All4One.Storage.Transfer

open Foundation

namespace All4One.Storage.ApiRest

-- What a handler answers with.
inductive Reply
  | created (bucket : String)
  | stored (metadata : ObjectMetadata)
  | objects (bucket : String) (objects : List ObjectMetadata) (count : Nat)
  | object (etag : String) (body : Bytes)
  | deleted
  | error (status : Nat) (error : String)
  | rejected (status : Nat) (text : String)
  deriving DecidableEq, Repr

def Reply.status : Reply → Nat
  | created _         => 201
  | stored _          => 201
  | objects ..        => 200
  | object ..         => 200
  | deleted           => 204
  | error status _    => status
  | rejected status _ => status

def withoutRole : Reply :=
  .error 503 "This node does not have the storage role"

def failed (text : Failure → String) (e : Failure) : Reply :=
  .error 500 (text e)

-- The default limit of `axum`, which no layer of the router changes.
def bodyLimit : Nat :=
  2 * 1024 * 1024

def tooLarge : Reply :=
  .rejected 413 "Failed to buffer the request body: length limit exceeded"

-- A handler that takes the body as `Bytes` does not get to see one that is over the limit.
def withBody (body : Bytes) (handler : Io Reply) : Io Reply :=
  if bodyLimit < body.length then return tooLarge else handler

-- `s.contains(part)`
def contains (s part : String) : Bool :=
  decide (part.toList <:+: s.toList)

def notFoundOrFailed (text : Failure → String) (e : Failure) : Reply :=
  let msg := text e
  if contains msg "not found" || contains msg "Object not found" then
    .error 404 msg
  else
    .error 500 msg

-- A panic is not an error that a handler gets to see.
def caught {α : Type} (x : Io α) : Io (Except Failure α) := do
  match ← Prog.attempt x with
  | .error .panic => Prog.ofExcept (.error .panic)
  | r             => return r

-- A header may have visible characters, those beyond ASCII included, blanks and tabs.
def isHeaderValue (value : String) : Bool :=
  value.toList.all fun c => c = '\t' ∨ 32 ≤ c.toNat ∧ c.toNat ≠ 127

-- `Response::builder()`, whose `unwrap` panics at a header that may not be sent.
def download (etag : String) (body : Bytes) : Except Failure Reply :=
  if isHeaderValue etag then .ok (.object etag body) else .error .panic

-- `.map(|m| m.etag).unwrap_or_default()`
def etagOrDefault : Except Failure ObjectMetadata → String
  | .ok metadata => metadata.etag
  | .error _     => ""

section

variable (crates : Crates) (text : Failure → String) (now : Nat → String) (role : Bool)
  (dataDir bucket key : String)

def createBucket : Io Reply := do
  if !role then
    return withoutRole
  match ← caught (Index.createBucket bucket) with
  | .ok _    => return .created bucket
  | .error e => return failed text e

def listBucketObjects (keyPrefix : Option String) (maxKeys : Option Nat) : Io Reply := do
  if !role then
    return withoutRole
  match ← caught (Index.listObjects crates bucket keyPrefix maxKeys) with
  | .ok objects => return .objects bucket objects objects.length
  | .error e    => return failed text e

-- What is sent to the peers once the object is stored is a task of its own.
def putObjectHandler (header : Option String) (body : Bytes) : Io Reply := do
  if !role then
    return withoutRole
  match ← caught (Storage.putObjectHandler crates now dataDir bucket key header body) with
  | .ok metadata => return .stored metadata
  | .error e     => return failed text e

def getObjectHandler : Io Reply := do
  if !role then
    return withoutRole
  match ← caught (getObject crates dataDir bucket key) with
  | .ok data => do
    let metadata ← Prog.attempt (Index.getObject crates bucket key)
    .ofExcept (download (etagOrDefault metadata) data)
  | .error e => return notFoundOrFailed text e

def deleteObjectHandler : Io Reply := do
  if !role then
    return withoutRole
  match ← caught (deleteObject bucket key) with
  | .ok _    => return .deleted
  | .error e => return notFoundOrFailed text e

end

end All4One.Storage.ApiRest
