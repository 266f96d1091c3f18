import OicKeyio.KeyBundle

set_option autoImplicit false

/-!
# Key jars

`KeyJar` and its methods over lists and bundles held by value: a jar maps each
issuer to its own list of bundles. Python shares a list object or bundle object
that is put under two issuers; `Objects` models the objects, and these methods
compute its view where nothing is shared (`Objects.view_update`,
`Objects.view_addHmac`, `Objects.view_removeKey`). `ca_certs` and `spec2key` are
stored and never read.
-/
namespace OicKeyio

structure KeyJar where
  issuerKeys : Dict (List KeyBundle)

namespace KeyJar

variable (lib : Lib)

def init : KeyJar := ⟨Dict.empty⟩

def addKb (issuer : String) (kb : KeyBundle) (kj : KeyJar) : KeyJar :=
  ⟨kj.issuerKeys.set issuer ((kj.issuerKeys.get? issuer).getD [] ++ [kb])⟩

/-- The bundle `add` builds for `url`: certificates are not checked on localhost. -/
def bundleFor (fs : Fs) (url : String) : Except Exc KeyBundle :=
  if Py.isIn "/localhost:" url || Py.isIn "/localhost/" url
  then KeyBundle.init lib fs { source := url, verifySsl := false }
  else KeyBundle.init lib fs { source := url }

def add (fs : Fs) (issuer url : String) : EStateM Exc KeyJar KeyBundle := do
  let kc ← MonadExcept.ofExcept (bundleFor lib fs url)
  modify (addKb issuer kc)
  return kc

def hmacBundle (fs : Fs) (key : Val) (use : String) : Except Exc KeyBundle :=
  KeyBundle.init lib fs { keys := [Dict.ofList [("kty", .str "hmac"), ("key", key), ("use", .str use)]] }

/-- The loop of `add_hmac`: `self.issuer_keys[""].append(KeyBundle(...))` per use. -/
def appendHmac (fs : Fs) (key : Val) : List String → EStateM Exc KeyJar Unit
  | [] => pure ()
  | use :: rest => fun kj =>
    match kj.issuerKeys.get? "" with
    | none => .error (.keyError "") kj
    | some l =>
      match hmacBundle lib fs key use with
      | .error e => .error e kj
      | .ok kb => appendHmac fs key rest ⟨kj.issuerKeys.set "" (l ++ [kb])⟩

def addHmac (fs : Fs) (issuer : String) (key : Val) (usage : List String) :
    EStateM Exc KeyJar Unit := do
  modify fun kj => if kj.issuerKeys.contains issuer then kj else ⟨kj.issuerKeys.set issuer []⟩
  appendHmac lib fs key usage

def setItem (kj : KeyJar) (issuer : String) (val : List KeyBundle) : KeyJar :=
  ⟨kj.issuerKeys.set issuer val⟩

def getItem (kj : KeyJar) (issuer : String) : Except Exc (List KeyBundle) :=
  match kj.issuerKeys.get? issuer with
  | some l => .ok l
  | none => .error (.keyError issuer)

def contains (kj : KeyJar) (item : String) : Bool := kj.issuerKeys.contains item

def normUse (use : String) : String :=
  if use = "dec" then "enc" else if use = "ver" then "sig" else use

/-- The entry `get` reads: the issuer, else its slash-toggled form; `""` has no fallback. -/
def lookupIssuer (kj : KeyJar) (issuer : String) : Except Exc (Option String) :=
  if issuer ≠ "" then
    if kj.issuerKeys.contains issuer then .ok (some issuer)
    else if Py.endswith issuer "/" then
      if kj.issuerKeys.contains (Py.dropLast issuer) then .ok (some (Py.dropLast issuer))
      else .ok none
    else if kj.issuerKeys.contains (issuer ++ "/") then .ok (some (issuer ++ "/"))
    else .ok none
  else if kj.issuerKeys.contains issuer then .ok (some issuer)
  else .error (.keyError issuer)

/-- `for bundles in _keys: ...`: the bundles read in turn, each refreshed in place. -/
def readAll {α : Type} (read : EStateM Exc KeyBundle α) :
    List KeyBundle → EStateM.Result Exc (List KeyBundle) (List α)
  | [] => .ok [] []
  | b :: bs =>
    match read b with
    | .error e b' => .error e (b' :: bs)
    | .ok a b' =>
      match readAll read bs with
      | .error e bs' => .error e (b' :: bs')
      | .ok as bs' => .ok (a :: as) (b' :: bs')

def addByKty (res : Dict (List Val)) (k : Key) : Dict (List Val) :=
  res.set k.kty ((res.get? k.kty).getD [] ++ [k.key])

def collect (use keyType : String) (ks : List Key) : Dict (List Val) :=
  if keyType ≠ "" then Dict.empty.set keyType ((ks.filter fun k => k.use = .str use).map Key.key)
  else (ks.filter fun k => k.use = .str use).foldl addByKty Dict.empty

def get (w : World) (use keyType issuer : String) : EStateM Exc KeyJar (Dict (List Val)) :=
  fun kj =>
  match lookupIssuer kj issuer with
  | .error e => .error e kj
  | .ok none => .ok Dict.empty kj
  | .ok (some j) =>
    let bs := (kj.issuerKeys.get? j).getD []
    if bs.isEmpty then .ok Dict.empty kj
    else
      let read := if keyType ≠ "" then KeyBundle.get lib w keyType else KeyBundle.keys lib w
      match readAll read bs with
      | .ok kss bs' => .ok (collect (normUse use) keyType kss.flatten) ⟨kj.issuerKeys.set j bs'⟩
      | .error e bs' => .error e ⟨kj.issuerKeys.set j bs'⟩

def getSigningKey (w : World) (keyType owner : String) : EStateM Exc KeyJar (Dict (List Val)) :=
  get lib w "sig" keyType owner

def getVerifyKey (w : World) (keyType owner : String) : EStateM Exc KeyJar (Dict (List Val)) :=
  get lib w "ver" keyType owner

def getEncryptKey (w : World) (keyType owner : String) : EStateM Exc KeyJar (Dict (List Val)) :=
  get lib w "enc" keyType owner

def getDecryptKey (w : World) (keyType owner : String) : EStateM Exc KeyJar (Dict (List Val)) :=
  get lib w "dec" keyType owner

/-- `x_keys(var, part)`: the counterpart's keys, each kind extended by one's own. -/
def xKeys {σ : Type} (func : String → String → EStateM Exc σ (Dict (List Val))) (part : String) :
    EStateM Exc σ (Dict (List Val)) := do
  let keys ← func "" part
  let own ← func "" ""
  return own.entries.foldl (fun keys p =>
    if p.2 = [] then keys else keys.set p.1 ((keys.get? p.1).getD [] ++ p.2)) keys

def verifyKeys (w : World) (part : String) : EStateM Exc KeyJar (Dict (List Val)) :=
  xKeys (getVerifyKey lib w) part

def decryptKeys (w : World) (part : String) : EStateM Exc KeyJar (Dict (List Val)) :=
  xKeys (getDecryptKey lib w) part

/-- The loop of `remove_key`, an index through the list it removes emptied bundles from. -/
def removeLoop (typ : String) (val : Val) (i : Nat) (kcs : List KeyBundle) : List KeyBundle :=
  if h : i < kcs.length then
    let kc := (kcs.get ⟨i, h⟩).remove typ val
    if kc._keys.length = 0 then removeLoop typ val (i + 1) (kcs.eraseIdx i)
    else removeLoop typ val (i + 1) (kcs.set i kc)
  else kcs
termination_by kcs.length - i
decreasing_by
  all_goals simp_wf
  · rw [List.length_eraseIdx_of_lt h]; omega
  · omega

def removeKey (issuer typ : String) (val : Val) (kj : KeyJar) : KeyJar :=
  match kj.issuerKeys.get? issuer with
  | none => kj
  | some kcs => ⟨kj.issuerKeys.set issuer (removeLoop typ val 0 kcs)⟩

/-- `update(kj)`: each entry of `other` extends this jar's entry, or becomes it. -/
def update (kj other : KeyJar) : KeyJar :=
  other.issuerKeys.entries.foldl
    (fun kj p => ⟨kj.issuerKeys.set p.1 ((kj.issuerKeys.get? p.1).getD [] ++ p.2)⟩) kj

/-- `match_owner(url)`: the first issuer, in the dict's order, that `url` starts with. -/
def matchOwner (kj : KeyJar) (url : String) : Except Exc String :=
  match kj.issuerKeys.keys.find? (fun owner => Py.startswith url owner) with
  | some owner => .ok owner
  | none => .error (.exception ("No keys for \x27" ++ url ++ "\x27"))

def exceptKeyError {σ : Type} (m : EStateM Exc σ Unit) : EStateM Exc σ Unit := fun kj =>
  match m kj with
  | .error e kj' => if e.isKeyError then .ok () kj' else .error e kj'
  | .ok _ kj' => .ok () kj'

/-- The first lines of `load_keys`: the issuer's list emptied or created, unless kept. -/
def resetIssuer (issuer : String) (replace : Bool) (kj : KeyJar) : KeyJar :=
  if !kj.issuerKeys.contains issuer || replace then ⟨kj.issuerKeys.set issuer []⟩ else kj

def loadKeys (fs : Fs) (pcr : Entry) (issuer : String) (replace : Bool) :
    EStateM Exc KeyJar Unit := do
  modify (resetIssuer issuer replace)
  exceptKeyError do
    match pcr.get? "jwks_uri" with
    | none => throw (.keyError "jwks_uri")
    | some (.str url) => discard (add lib fs issuer url)
    | some v => throw (.typeError ("argument of type \x27" ++ v.typeName ++ "\x27 is not iterable"))

end KeyJar

end OicKeyio
