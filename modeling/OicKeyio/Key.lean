import OicKeyio.Python

set_option autoImplicit false

/-!
# Keys

`Key` and its subclasses `RSA_key`, `EC_key` and `HMAC_key` are one structure
whose `variant` holds the attributes the subclass adds. The cryptographic
library and the files are parameters: `Lib` is what `comp` and `decomp` call,
`Fs` what the loaders read.
-/
namespace OicKeyio

/-- A JSON object as `json.loads` returns it; also the keywords of `cls(**inst)`. -/
abbrev Entry := Dict Val

/-- A dict display `{k: v, ...}`: a repeated key keeps its first place, its last value. -/
def Dict.ofList {α : Type} (l : List (String × α)) : Dict α :=
  l.foldl (fun d p => d.set p.1 p.2) Dict.empty

/-- The library `comp` and `decomp` call; a call under another `Lib` may make other objects. -/
structure Lib where
  newPubKey : String → String → Except Exc RsaObj
  longToBase64 : Nat → String

/-- The files keyio.py reads; a call under another `Fs` may load other objects from them. -/
structure Fs where
  jwkFile : String → Except Exc (List Entry)
  rsaLoad : String → Except Exc RsaObj

inductive KeyClass where
  | rsaKey
  | ecKey
  | hmacKey
deriving DecidableEq, Repr

def k2c (typ : String) : Option KeyClass :=
  if typ = "rsa" then some .rsaKey
  else if typ = "ec" then some .ecKey
  else if typ = "hmac" then some .hmacKey
  else none

inductive Variant where
  | rsa (n e : Val)
  | ec (crv x y : Val)
  | hmac
deriving DecidableEq, Repr

/-- A key; `__init__` stores `kty.lower()` and nothing assigns `kty` later. -/
structure Key where
  kty : String
  alg : Val
  use : Val
  kid : Val
  key : Val
  variant : Variant
  kty_lower : Py.IsLower kty
deriving DecidableEq

namespace KeyClass

def params : KeyClass → List String
  | .rsaKey => ["kty", "alg", "use", "kid", "n", "e", "key"]
  | .ecKey => ["kty", "alg", "use", "kid", "crv", "x", "y", "key"]
  | .hmacKey => ["kty", "alg", "use", "kid", "key"]

def defaultKty : KeyClass → String
  | .rsaKey => "rsa"
  | .ecKey => "rsa"
  | .hmacKey => ""

def members : KeyClass → List String
  | .rsaKey => ["kty", "alg", "use", "kid", "n", "e"]
  | .ecKey => ["kty", "alg", "use", "kid", "crv", "x", "y"]
  | .hmacKey => ["kty", "alg", "use", "kid"]

lemma members_nodup (cls : KeyClass) : cls.members.Nodup := by
  cases cls <;> decide

def arg (kw : Entry) (name : String) : Val := (kw.get? name).getD (.str "")

/-- `cls(**kw)`: `TypeError` at a keyword `__init__` does not take, then `kty.lower()`. -/
def init (cls : KeyClass) (kw : Entry) : Except Exc Key :=
  match kw.keys.find? (fun name => name ∉ cls.params) with
  | some name =>
    .error (.typeError ("__init__() got an unexpected keyword argument \x27" ++ name ++ "\x27"))
  | none =>
    match (kw.get? "kty").getD (.str cls.defaultKty) with
    | .str kty => .ok
      { kty := Py.lower kty, alg := arg kw "alg", use := arg kw "use", kid := arg kw "kid",
        key := arg kw "key",
        variant := match cls with
          | .rsaKey => .rsa (arg kw "n") (arg kw "e")
          | .ecKey => .ec (arg kw "crv") (arg kw "x") (arg kw "y")
          | .hmacKey => .hmac,
        kty_lower := Py.isLower_lower kty }
    | _ => .error (.attributeError "lower")

end KeyClass

namespace Key

def cls (k : Key) : KeyClass :=
  match k.variant with
  | .rsa .. => .rsaKey
  | .ec .. => .ecKey
  | .hmac => .hmacKey

def attr (k : Key) (name : String) : Val :=
  if name = "kty" then .str k.kty
  else if name = "alg" then k.alg
  else if name = "use" then k.use
  else if name = "kid" then k.kid
  else match k.variant with
    | .rsa n e => if name = "n" then n else if name = "e" then e else .none
    | .ec crv x y => if name = "crv" then crv else if name = "x" then x else if name = "y" then y
        else .none
    | .hmac => .none

lemma nodup_toDict (k : Key) :
    (((k.cls.members.filter fun m => (k.attr m).truthy).map fun m => (m, k.attr m)).map
      Prod.fst).Nodup := by
  rw [List.map_map]
  exact (k.cls.members_nodup.filter _).map_on fun _ _ _ _ h => h

/-- `to_dict`: the members whose value is true, in `members` order. -/
def toDict (k : Key) : Entry :=
  ⟨(k.cls.members.filter fun m => (k.attr m).truthy).map fun m => (m, k.attr m),
    k.nodup_toDict⟩

/-- `RSA_key.comp`; `Key.comp` is `pass`. -/
def comp (lib : Lib) (k : Key) : Except Exc Key :=
  match k.variant with
  | .rsa n e => (lib.newPubKey e.pyStr n.pyStr).map fun o => { k with key := .rsa o }
  | _ => .ok k

/-- `RSA_key.decomp`, which reads `self.key.n`; `Key.decomp` is `pass`. -/
def decomp (lib : Lib) (k : Key) : Except Exc Key :=
  match k.variant, k.key with
  | .rsa _ _, .rsa o =>
    .ok { k with variant := .rsa (.str (lib.longToBase64 o.n)) (.str (lib.longToBase64 o.e)) }
  | .rsa _ _, _ => .error (.attributeError "n")
  | _, _ => .ok k

/-- `RSA_key.dc`; `Key.dc` is `pass`. -/
def dc (lib : Lib) (k : Key) : Except Exc Key :=
  match k.variant with
  | .rsa n e =>
    if k.key.truthy then k.decomp lib else if n.truthy && e.truthy then k.comp lib else .ok k
  | _ => .ok k

end Key

def KeyClass.blank (cls : KeyClass) : Key :=
  { kty := cls.defaultKty, alg := .str "", use := .str "", kid := .str "", key := .str "",
    variant := match cls with
      | .rsaKey => .rsa (.str "") (.str "")
      | .ecKey => .ec (.str "") (.str "") (.str "")
      | .hmacKey => .hmac,
    kty_lower := by cases cls <;> rfl }

/-- `RSA_key(key=key, use=use, kid=kid)` with no `dc()`, so `n` and `e` stay empty. -/
def rsaKeyWith (key : Val) (use : String) (kid : Val) : Key :=
  { KeyClass.rsaKey.blank with key, use := .str use, kid }

lemma KeyClass.init_empty (cls : KeyClass) : cls.init Dict.empty = .ok cls.blank := by
  cases cls <;> rfl

end OicKeyio
