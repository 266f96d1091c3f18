import OicKeyio.Key

set_option autoImplicit false

/-!
# Key bundles

`KeyBundle` and its methods. A method that mutates `self` and may raise is an
`EStateM Exc KeyBundle` action: its error result carries the bundle as the
exception leaves it. The endpoint, the clock and the files are the `World` a
read is given.
-/
namespace OicKeyio

/-- The GET of `do_remote`: the source URL, `verify`, and `If-None-Match` for a held etag. -/
structure Request where
  url : String
  verify : Bool
  ifNoneMatch : Option String
deriving DecidableEq, Repr

/-- What `do_remote` reads of a response: status, keys, `Etag` and `Cache-Control`. -/
structure Response where
  status : Nat
  text : Except Exc (List Entry)
  etag : Option String
  cacheControl : Option String

/-- What a read sees outside the bundle: the clock before and after the GET, network, files. -/
structure World where
  now : Nat
  done : Nat
  net : Request → Except Exc Response
  fs : Fs

structure KeyBundle where
  _keys : List Key
  remote : Bool
  verifySsl : Bool
  cacheTime : Nat
  timeOut : Nat
  etag : String
  cacheControl : Option String
  source : Option String
  fileformat : String
  keytype : String
  keyusage : Option (List String)
deriving DecidableEq

/-- The keywords of `KeyBundle.__init__`, with their defaults. -/
structure BundleArgs where
  keys : List Entry := []
  source : String := ""
  cacheTime : Nat := 300
  verifySsl : Bool := true
  fileformat : String := "jwk"
  keytype : String := "rsa"
  keyusage : Option (List String) := none

def outcome {σ : Type} : Option Exc → σ → EStateM.Result Exc σ Unit
  | none, s => .ok () s
  | some e, s => .error e s

section Run

variable {σ α β : Type}

@[simp] lemma run_bind (x : EStateM Exc σ α) (f : α → EStateM Exc σ β) (s : σ) :
    (x >>= f) s = match x s with | .ok a s => f a s | .error e s => .error e s := by
  change EStateM.bind x f s = _
  unfold EStateM.bind
  cases x s <;> rfl

@[simp] lemma run_pure (a : α) (s : σ) : (pure a : EStateM Exc σ α) s = .ok a s := rfl

@[simp] lemma run_getThe (s : σ) : (getThe σ : EStateM Exc σ σ) s = .ok s s := rfl

@[simp] lemma run_modify (f : σ → σ) (s : σ) :
    (modify f : EStateM Exc σ Unit) s = .ok () (f s) := rfl

@[simp] lemma run_set (s' s : σ) : (set s' : EStateM Exc σ Unit) s = .ok () s' := rfl

@[simp] lemma run_ofExcept_ok (a : α) (s : σ) :
    (MonadExcept.ofExcept (.ok a : Except Exc α) : EStateM Exc σ α) s = .ok a s := rfl

@[simp] lemma run_ofExcept_error (e : Exc) (s : σ) :
    (MonadExcept.ofExcept (.error e : Except Exc α) : EStateM Exc σ α) s = .error e s := rfl

@[simp] lemma run_throw (e : Exc) (s : σ) : (throw e : EStateM Exc σ α) s = .error e s := rfl

end Run

/-- `x is not []`: the display `[]` builds a new list, so the test holds of every `x`. -/
def isNotNewList {α : Type} (_ : List α) : Bool := true

namespace KeyBundle

variable (lib : Lib)

/-- The body of `do_keys`'s loop up to the append: `K2C[typ](**inst)`, then `dc()`. -/
def decodeKey (inst : Entry) : Except Exc Key :=
  match inst.get? "kty" with
  | none => .error (.keyError "kty")
  | some (.str s) =>
    match k2c (Py.lower s) with
    | none => .error (.keyError (Py.lower s))
    | some cls => (cls.init inst).bind (Key.dc lib)
  | some _ => .error (.attributeError "lower")

def doKeys : List Entry → EStateM Exc KeyBundle Unit
  | [] => pure ()
  | inst :: rest => do
    let k ← MonadExcept.ofExcept (decodeKey lib inst)
    modify fun b => { b with _keys := b._keys ++ [k] }
    doKeys rest

/-- What `do_keys` appends before it stops, and the exception it stops at. -/
def decodeAll : List Entry → List Key × Option Exc
  | [] => ([], none)
  | inst :: rest =>
    match decodeKey lib inst with
    | .error e => ([], some e)
    | .ok k => (k :: (decodeAll rest).1, (decodeAll rest).2)

theorem doKeys_eq (es : List Entry) (b : KeyBundle) :
    doKeys lib es b =
      outcome (decodeAll lib es).2 { b with _keys := b._keys ++ (decodeAll lib es).1 } := by
  induction es generalizing b with
  | nil => simp [doKeys, decodeAll, outcome]
  | cons inst rest ih =>
    simp only [doKeys, decodeAll]
    cases decodeKey lib inst with
    | error e => simp [outcome]
    | ok k => simp [ih]

def doLocalJwk (fs : Fs) (filename : String) : EStateM Exc KeyBundle Unit := do
  doKeys lib (← MonadExcept.ofExcept (fs.jwkFile filename))

/-- The loop of `do_local_der`: one key per use, all holding `bkey`. -/
def derKeys (bkey : Val) (keytype : String) : List String → EStateM Exc KeyBundle Unit
  | [] => pure ()
  | use :: rest => do
    let cls ← MonadExcept.ofExcept ((k2c keytype).elim (.error (.keyError keytype)) .ok)
    let k ← MonadExcept.ofExcept ({ cls.blank with key := bkey }.decomp lib)
    modify fun b => { b with _keys := b._keys ++ [{ k with use := .str use }] }
    derKeys bkey keytype rest

def doLocalDer (fs : Fs) (filename keytype : String) (keyusage : Option (List String)) :
    EStateM Exc KeyBundle Unit := do
  let bkey ← if keytype = "rsa" then Val.rsa <$> MonadExcept.ofExcept (fs.rsaLoad filename)
    else pure Val.none
  derKeys lib bkey keytype (match keyusage with
    | some (u :: us) => u :: us
    | _ => ["enc", "sig"])

def request (b : KeyBundle) : Request :=
  { url := b.source.getD "", verify := b.verifySsl,
    ifNoneMatch := if b.etag ≠ "" then some b.etag else none }

def doRemote (w : World) : EStateM Exc KeyBundle Unit := do
  let r ← MonadExcept.ofExcept (w.net (← getThe KeyBundle).request)
  if r.status = 304 then
    modify fun b => { b with timeOut := w.done + b.cacheTime }
  else if r.status = 200 then
    modify fun b => { b with timeOut := w.done + b.cacheTime }
    doKeys lib (← MonadExcept.ofExcept r.text)
    modify fun b => { b with etag := r.etag.getD b.etag }
    modify fun b => { b with cacheControl := r.cacheControl.orElse fun _ => b.cacheControl }

theorem doRemote_eq (w : World) (b : KeyBundle) :
    doRemote lib w b =
      match w.net b.request with
      | .error e => .error e b
      | .ok r =>
        if r.status = 304 then .ok () { b with timeOut := w.done + b.cacheTime }
        else if r.status = 200 then
          match r.text with
          | .error e => .error e { b with timeOut := w.done + b.cacheTime }
          | .ok es =>
            outcome (decodeAll lib es).2
              (match (decodeAll lib es).2 with
                | none =>
                  { b with
                    timeOut := w.done + b.cacheTime, _keys := b._keys ++ (decodeAll lib es).1
                    etag := r.etag.getD b.etag
                    cacheControl := r.cacheControl.orElse (fun _ => b.cacheControl) }
                | some _ =>
                  { b with timeOut := w.done + b.cacheTime, _keys := b._keys ++ (decodeAll lib es).1 })
        else .ok () b := by
  simp only [doRemote, run_bind, run_getThe]
  cases w.net b.request with
  | error e => rfl
  | ok r =>
    simp only [run_ofExcept_ok]
    split_ifs
    · rfl
    · cases r.text with
      | error e => rfl
      | ok es =>
        simp only [run_bind, run_modify, run_ofExcept_ok, doKeys_eq]
        cases (decodeAll lib es).2 <;> rfl
    · rfl

/-- `update`: a forced reload, which empties `_keys` before reading the source. -/
def update (w : World) : EStateM Exc KeyBundle Unit := do
  let b ← getThe KeyBundle
  match b.source with
  | some src =>
    if src ≠ "" then
      set { b with _keys := [] }
      if b.remote = false then
        if b.fileformat = "jwk" then doLocalJwk lib w.fs src
        else if b.fileformat = "der" then doLocalDer lib w.fs src b.keytype b.keyusage
      else doRemote lib w
  | none => pure ()

/-- The reload `update` starts once it has emptied `_keys`. -/
def reload (w : World) (b : KeyBundle) (src : String) : EStateM Exc KeyBundle Unit :=
  if b.remote = false then
    if b.fileformat = "jwk" then doLocalJwk lib w.fs src
    else if b.fileformat = "der" then doLocalDer lib w.fs src b.keytype b.keyusage
    else pure ()
  else doRemote lib w

theorem update_eq (w : World) (b : KeyBundle) :
    update lib w b =
      match b.source with
      | some src => if src ≠ "" then reload lib w b src { b with _keys := [] } else .ok () b
      | none => .ok () b := by
  simp only [update, reload, run_bind, run_getThe]
  cases b.source with
  | none => rfl
  | some src =>
    dsimp only
    split_ifs <;> rfl

def uptodate (w : World) : EStateM Exc KeyBundle Unit := do
  let b ← getThe KeyBundle
  if isNotNewList b._keys then
    if b.remote then
      if w.now > b.timeOut then update lib w
  else if b.remote then
    update lib w

theorem uptodate_eq (w : World) (b : KeyBundle) :
    uptodate lib w b = if b.remote ∧ b.timeOut < w.now then update lib w b else .ok () b := by
  simp only [uptodate, run_bind, run_getThe, isNotNewList, if_true]
  by_cases hr : b.remote <;> by_cases ht : b.timeOut < w.now <;> simp [hr, ht]

theorem uptodate_local (w : World) (b : KeyBundle) (h : b.remote = false) :
    uptodate lib w b = .ok () b := by
  simp [uptodate_eq, h]

def get (w : World) (typ : String) : EStateM Exc KeyBundle (List Key) := do
  uptodate lib w
  let b ← getThe KeyBundle
  if typ ≠ "" then
    return b._keys.filter fun k => k.kty = Py.lower typ
  else
    return b._keys

def keys (w : World) : EStateM Exc KeyBundle (List Key) := do
  uptodate lib w
  return (← getThe KeyBundle)._keys

def jsonable : Val → Bool
  | .rsa _ => false
  | _ => true

/-- `jwks()`: the text `json.dumps` writes, as `json.loads(text)["keys"]` reads it back. -/
def jwks (w : World) : EStateM Exc KeyBundle (List Entry) := do
  uptodate lib w
  let ds := (← getThe KeyBundle)._keys.map Key.toDict
  if ds.all fun d => d.entries.all fun p => jsonable p.2 then return ds
  else throw (.typeError "is not JSON serializable")

def afterRefresh {α : Type} (f : KeyBundle → α) : EStateM.Result Exc KeyBundle Unit →
    EStateM.Result Exc KeyBundle α
  | .ok _ b => .ok (f b) b
  | .error e b => .error e b

def select (typ : String) (ks : List Key) : List Key :=
  if typ ≠ "" then ks.filter fun k => k.kty = Py.lower typ else ks

theorem get_eq (w : World) (typ : String) (b : KeyBundle) :
    get lib w typ b = afterRefresh (fun b => select typ b._keys) (uptodate lib w b) := by
  simp only [get, select, run_bind, run_getThe]
  cases uptodate lib w b <;> split_ifs <;> rfl

theorem keys_eq (w : World) (b : KeyBundle) :
    keys lib w b = afterRefresh (·._keys) (uptodate lib w b) := by
  simp only [keys, run_bind, run_getThe]
  cases uptodate lib w b <;> rfl

theorem jwks_eq (w : World) (b : KeyBundle) :
    jwks lib w b =
      match uptodate lib w b with
      | .ok _ b' =>
        if (b'._keys.map Key.toDict).all fun d => d.entries.all fun p => jsonable p.2 then
          .ok (b'._keys.map Key.toDict) b'
        else .error (.typeError "is not JSON serializable") b'
      | .error e b' => .error e b' := by
  simp only [jwks, run_bind, run_getThe]
  cases uptodate lib w b <;> first | rfl | (dsimp only; split_ifs <;> rfl)

theorem reads_of_refresh_error (w : World) (b b' : KeyBundle) (e : Exc)
    (h : uptodate lib w b = .error e b') :
    (∀ typ, get lib w typ b = .error e b') ∧ keys lib w b = .error e b' ∧
      jwks lib w b = .error e b' := by
  refine ⟨fun typ => ?_, ?_, ?_⟩
  · rw [get_eq, h]; rfl
  · rw [keys_eq, h]; rfl
  · rw [jwks_eq, h]

theorem get_local (w : World) (typ : String) (b : KeyBundle) (h : b.remote = false) :
    get lib w typ b = .ok (select typ b._keys) b := by
  rw [get_eq, uptodate_local lib w b h]; rfl

theorem keys_local (w : World) (b : KeyBundle) (h : b.remote = false) :
    keys lib w b = .ok b._keys b := by
  rw [keys_eq, uptodate_local lib w b h]; rfl

def remove (b : KeyBundle) (typ : String) (val : Val) : KeyBundle :=
  if val.truthy then
    { b with _keys := b._keys.filter fun k => !(k.kty = Py.lower typ && k.key = val) }
  else
    { b with _keys := b._keys.filter fun k => !(k.kty = Py.lower typ) }

def append (b : KeyBundle) (key : Key) : KeyBundle := { b with _keys := b._keys ++ [key] }

/-- A constructor's run of a loading method: the bundle, or the exception. -/
def build (m : EStateM Exc KeyBundle Unit) (b : KeyBundle) : Except Exc KeyBundle :=
  match m b with
  | .ok _ b' => .ok b'
  | .error e _ => .error e

def loadLocal (fs : Fs) (b : KeyBundle) : Except Exc KeyBundle :=
  match b.source with
  | some src =>
    if b.fileformat = "jwk" then build (doLocalJwk lib fs src) b
    else if b.fileformat = "der" then build (doLocalDer lib fs src b.keytype b.keyusage) b
    else .ok b
  | none => .ok b

def fresh (a : BundleArgs) : KeyBundle :=
  { _keys := [], remote := false, verifySsl := a.verifySsl, cacheTime := a.cacheTime,
    timeOut := 0, etag := "", cacheControl := none, source := none,
    fileformat := Py.lower a.fileformat, keytype := Py.lower a.keytype,
    keyusage := a.keyusage }

/-- `KeyBundle.__init__` -/
def init (fs : Fs) (a : BundleArgs) : Except Exc KeyBundle :=
  let b := fresh a
  if a.keys ≠ [] then build (doKeys lib a.keys) b
  else if Py.startswith a.source "file://" then
    loadLocal lib fs { b with source := some (Py.drop a.source 7) }
  else if Py.startswith a.source "http://" || Py.startswith a.source "https://" then
    .ok { b with source := some a.source, remote := true }
  else if a.source = "" then .ok b
  else .error (.exception ("Unsupported source type: " ++ a.source))

end KeyBundle

def keybundleFromLocalFile (lib : Lib) (fs : Fs) (filename typ : String)
    (usage : List String) : Except Exc KeyBundle :=
  if Py.lower typ = "rsa" then do
    let kb ← KeyBundle.init lib fs {}
    let o ← fs.rsaLoad filename
    match usage with
    | [] => throw .indexError
    | u :: rest =>
      let k := rsaKeyWith (.rsa o) u (.str "")
      return rest.foldl (fun kb use => kb.append (rsaKeyWith k.key use (.str ""))) (kb.append k)
  else throw (.exception "Unsupported key type")

/-- One usage of `key_setup`'s loop: an rsa usage loads its key, or creates and stores one. -/
def keySetupStep (load create : String → Except Exc RsaObj) (kwargs : Dict (Option Entry))
    (acc : KeyBundle × Int) (usage : String) : Except Exc (KeyBundle × Int) :=
  match kwargs.get? usage with
  | some (some args) =>
    match args.get? "alg" with
    | none => .error (.keyError "alg")
    | some alg =>
      if alg = .str "rsa" then do
        let o ← tryCatch (load usage) fun _ => create usage
        let kb := acc.1.append (rsaKeyWith (.rsa o) usage (.int acc.2))
        if usage = "sig" ∧ !kwargs.contains "enc" then
          pure (kb.append (rsaKeyWith (.rsa o) "enc" (.int (acc.2 + 1))), acc.2 + 2)
        else pure (kb, acc.2 + 1)
      else .ok acc
  | _ => .ok acc

/-- `key_setup(vault, **kwargs)` after its directory work. -/
def keySetup (load create : String → Except Exc RsaObj) (kwargs : Dict (Option Entry)) :
    Except Exc KeyBundle :=
  Prod.fst <$> ["sig", "enc"].foldlM (keySetupStep load create kwargs) (KeyBundle.fresh {}, 1)

end OicKeyio
