import Rulebook.Schema.Scalar
/-!
# Credentials for HTTP requests
-/

namespace Rulebook

/-- How a request is authenticated. -/
inductive AuthScheme where
  /-- A bearer token. -/
  | bearer
  /-- User name and password. -/
  | basic
  /-- A key in a header. -/
  | apiKey
deriving DecidableEq, Repr

instance : Enumeration AuthScheme where
  members := [.bearer, .basic, .apiKey]
  name
    | .bearer => "bearer"
    | .basic => "basic"
    | .apiKey => "api_key"

/-- A scheme and the credentials for it. -/
structure Authentication where
  /-- The scheme. -/
  scheme : AuthScheme
  /-- The credentials by name. -/
  credentials : List (String × String)
deriving DecidableEq, Repr

/-- A scheme whose decisive credential is absent or empty. -/
inductive AuthError where
  /-- No token for the bearer scheme. -/
  | noToken
  /-- No user name for the basic scheme. -/
  | noUsername
  /-- No key for the key scheme. -/
  | noKey
deriving DecidableEq, Repr

/-- The wording of an authentication error. -/
def AuthError.message : AuthError → String
  | .noToken => "Bearer authentication requires a token credential"
  | .noUsername => "Basic authentication requires a username credential"
  | .noKey => "API key authentication requires a key credential"

/-- Bytes in Base64 with padding. -/
def base64 (bytes : List UInt8) : String :=
  let alphabet := "ABCDEFGHIJKLMNOPQRSTUVWXYZabcdefghijklmnopqrstuvwxyz0123456789+/".toList
  let digit (n : Nat) : Char := (alphabet[n % 64]?).getD '='
  let rec encode : List UInt8 → List Char
    | a :: b :: c :: r =>
      let n := a.toNat * 65536 + b.toNat * 256 + c.toNat
      digit (n / 262144) :: digit (n / 4096) :: digit (n / 64) :: digit n :: encode r
    | [a, b] =>
      let n := a.toNat * 65536 + b.toNat * 256
      [digit (n / 262144), digit (n / 4096), digit (n / 64), '=']
    | [a] =>
      let n := a.toNat * 65536
      [digit (n / 262144), digit (n / 4096), '=', '=']
    | [] => []
  String.ofList (encode bytes)

namespace Authentication

/-- The credential of that name, if it is not empty. -/
def credential? (a : Authentication) (name : String) : Option String :=
  match a.credentials.lookup name with
  | some v => if v.isEmpty then none else some v
  | none => none

/-- The name of the header that holds an API key. -/
def keyHeader (a : Authentication) : String := (a.credential? "header").getD "X-API-Key"

/-- The header that carries the credentials: its name and its value. -/
def header (a : Authentication) : Except AuthError (String × String) :=
  match a.scheme with
  | .bearer =>
    match a.credential? "token" with
    | some token => .ok ("Authorization", "Bearer " ++ token)
    | none => .error .noToken
  | .basic =>
    match a.credential? "username" with
    | some user =>
      let pair := user ++ ":" ++ (a.credentials.lookup "password").getD ""
      .ok ("Authorization", "Basic " ++ base64 pair.toUTF8.toList)
    | none => .error .noUsername
  | .apiKey =>
    match a.credential? "key" with
    | some key => .ok (a.keyHeader, key)
    | none => .error .noKey

/-- The headers of a request; none without authentication. -/
def headers : Option Authentication → Except AuthError (List (String × String))
  | none => .ok []
  | some a => a.header.map fun h => [h]

/-- Reads an authentication. -/
def read : Schema Authentication := Schema.model "HttpAuthentication" fun fs =>
  Authentication.mk
    <$> Schema.required fs "type" Schema.named
    <*> Schema.defaulted fs "credentials" Schema.textFields []

end Authentication

/-- An object whose fields are texts. -/
def Value.ofTextFields (l : List (String × String)) : Value :=
  .object (l.map fun (k, v) => (k, .text v))

/-- The name of a member of a finite type, as a value. -/
def Value.ofName {α : Type} [Enumeration α] (a : α) : Value := .text (Enumeration.name a)

/-- The payload of an authentication. -/
def Authentication.toValue (a : Authentication) : Value :=
  .object [("type", .ofName a.scheme), ("credentials", .ofTextFields a.credentials)]

end Rulebook
