import WalletTopUp.Json.Shape

/-!
# The header of a token

The header names the algorithm of the signature and may describe the key. Everything it says about the
key has to be well-formed, although only the algorithm is used: what has a meaning must not be said twice,
and what has none may be said in any way.
-/

namespace WalletTopUp.Subject

open Json

def algorithmNames : List String :=
  ["HS256", "HS384", "HS512", "ES256", "ES384", "RS256", "RS384", "RS512", "PS256", "PS384", "PS512",
    "EdDSA"]

/-- An algorithm for signatures, by its place among the names. -/
abbrev Algorithm := Fin algorithmNames.length

/-- Keyed hashing with SHA-256, the only algorithm that is verified. -/
def hs256 : Algorithm := ⟨0, by decide⟩

abbrev headerFields : Fields :=
  .field "typ" (.optional (.scalar .text)) <|
  .field "alg" (.choice algorithmNames) <|
  .field "cty" (.optional (.scalar .text)) <|
  .field "jku" (.optional (.scalar .text)) <|
  .field "jwk" (.optional .asWritten) <|
  .field "kid" (.optional (.scalar .text)) <|
  .field "x5u" (.optional (.scalar .text)) <|
  .field "x5c" (.optional .any) <|
  .field "x5t" (.optional (.scalar .text)) <|
  .field "x5t#S256" (.optional (.scalar .text)) .done

def isString : Json → Bool
  | .text _ => true
  | _ => false

def isTexts : Json → Bool
  | .array items => items.all isString
  | _ => false

/-- One of these names, alone or as the only key of an object with the value `null`. -/
def isNameAmong (names : List String) : Json → Bool
  | .text name => names.contains name
  | .object [(name, .null)] => names.contains name
  | _ => false

/-- One of these names; as a key it may have an empty object for its value as well. -/
def isTagAmong (names : List String) : Json → Bool
  | .object [(name, .object [])] => names.contains name
  | value => isNameAmong names value

def curveNames : List String := ["P-256", "P-384", "P-521", "Ed25519"]

def keyAlgorithmNames : List String := algorithmNames ++ ["RSA1_5", "RSA-OAEP", "RSA-OAEP-256"]

/-- A member of a key and what its value has to be. -/
abbrev Requirement := String × (Json → Bool)

/-- What a key may say about its use. -/
def remarks : List Requirement :=
  [("use", isString), ("key_ops", isTexts), ("alg", isTagAmong keyAlgorithmNames), ("kid", isString),
    ("x5u", isString), ("x5c", isTexts), ("x5t", isString), ("x5t#S256", isString)]

/-- What a key has to say about its numbers, by its type. -/
def keyTypes : List (List Requirement) :=
  [[("kty", isNameAmong ["EC"]), ("crv", isNameAmong curveNames), ("x", isString), ("y", isString)],
    [("kty", isNameAmong ["RSA"]), ("n", isString), ("e", isString)],
    [("kty", isNameAmong ["oct"]), ("k", isString)],
    [("kty", isNameAmong ["OKP"]), ("crv", isNameAmong curveNames), ("x", isString)]]

def valuesOf (name : String) (members : List (String × Json)) : List Json :=
  (members.filter (·.1 = name)).map (·.2)

/-- There is one such member and it is as required. -/
def meets (members : List (String × Json)) (r : Requirement) : Bool :=
  match valuesOf r.1 members with
  | [value] => r.2 value
  | _ => false

/-- There is no such member, or one that is null or as required. -/
def allows (members : List (String × Json)) (r : Requirement) : Bool :=
  match valuesOf r.1 members with
  | [] | [.null] => true
  | [value] => r.2 value
  | _ => false

def isKey : Json → Bool
  | .object members => remarks.all (allows members) && keyTypes.any (·.all (meets members))
  | _ => false

def algorithmOf? (src : Source) : Option Algorithm :=
  match (Shape.record "Header" headerFields).whole src with
  | .ok (_, algorithm, _, _, key, _, _, chain, _) =>
    if key.all isKey && chain.all isTexts then some algorithm else none
  | .error _ => none

end WalletTopUp.Subject
