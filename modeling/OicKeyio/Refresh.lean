import OicKeyio.KeyBundle

set_option autoImplicit false

/-!
# Refreshing a bundle

A read of a remote bundle starts with `_uptodate`, which calls `update` once
`now > time_out`. `update` empties `_keys` and only then calls `do_remote`,
which sends the conditional GET; nothing on the way catches an exception.
-/
namespace OicKeyio.Refresh
open KeyBundle

variable (lib : Lib)

lemma request_clear (b : KeyBundle) : ({ b with _keys := [] } : KeyBundle).request = b.request :=
  rfl

lemma update_remote (w : World) (b : KeyBundle) (src : String) (hsrc : b.source = some src)
    (hne : src ≠ "") (hr : b.remote = true) :
    update lib w b = doRemote lib w { b with _keys := [] } := by
  simp [update_eq, hsrc, hne, reload, hr]

lemma update_local (w : World) (b : KeyBundle) (src : String) (hsrc : b.source = some src)
    (hne : src ≠ "") :
    update lib w b = reload lib w b src { b with _keys := [] } := by
  simp [update_eq, hsrc, hne]

lemma doLocalJwk_eq (fs : Fs) (f : String) (b : KeyBundle) :
    doLocalJwk lib fs f b =
      match fs.jwkFile f with
      | .error e => .error e b
      | .ok es => doKeys lib es b := by
  simp only [doLocalJwk, run_bind]
  cases fs.jwkFile f <;> rfl

lemma update_transport (w : World) (b : KeyBundle) (src : String) (hsrc : b.source = some src)
    (hne : src ≠ "") (hr : b.remote = true) (e : Exc) (hnet : w.net b.request = .error e) :
    update lib w b = .error e { b with _keys := [] } := by
  rw [update_remote lib w b src hsrc hne hr, doRemote_eq, request_clear, hnet]

lemma update_status (w : World) (b : KeyBundle) (src : String) (hsrc : b.source = some src)
    (hne : src ≠ "") (hr : b.remote = true) (r : Response) (hnet : w.net b.request = .ok r)
    (h304 : r.status ≠ 304) (h200 : r.status ≠ 200) :
    update lib w b = .ok () { b with _keys := [] } := by
  rw [update_remote lib w b src hsrc hne hr, doRemote_eq, request_clear, hnet]
  simp [h304, h200]

lemma update_not_modified (w : World) (b : KeyBundle) (src : String)
    (hsrc : b.source = some src) (hne : src ≠ "") (hr : b.remote = true) (r : Response)
    (hnet : w.net b.request = .ok r) (h304 : r.status = 304) :
    update lib w b = .ok () { b with _keys := [], timeOut := w.done + b.cacheTime } := by
  rw [update_remote lib w b src hsrc hne hr, doRemote_eq, request_clear, hnet]
  simp [h304]

lemma update_bad_body (w : World) (b : KeyBundle) (src : String) (hsrc : b.source = some src)
    (hne : src ≠ "") (hr : b.remote = true) (r : Response) (hnet : w.net b.request = .ok r)
    (h200 : r.status = 200) (e : Exc)
    (hbad : r.text = .error e ∨ ∃ es, r.text = .ok es ∧ (decodeAll lib es).2 = some e) :
    ∃ b', update lib w b = .error e b' ∧ b'.timeOut = w.done + b.cacheTime := by
  rw [update_remote lib w b src hsrc hne hr, doRemote_eq, request_clear, hnet]
  simp only [h200, reduceIte, show (200 : Nat) ≠ 304 by decide]
  rcases hbad with htext | ⟨es, htext, hdec⟩
  · exact ⟨_, by rw [htext], rfl⟩
  · refine ⟨{ b with _keys := [] ++ (decodeAll lib es).1, timeOut := w.done + b.cacheTime },
      ?_, rfl⟩
    rw [htext]
    simp only [hdec, outcome]

lemma update_bad_jwk (w : World) (b : KeyBundle) (src : String) (hsrc : b.source = some src)
    (hne : src ≠ "") (hr : b.remote = false) (hf : b.fileformat = "jwk") (e : Exc)
    (hbad : w.fs.jwkFile src = .error e ∨
      ∃ es, w.fs.jwkFile src = .ok es ∧ (decodeAll lib es).2 = some e) :
    ∃ b', update lib w b = .error e b' := by
  have hjwk : reload lib w b src = doLocalJwk lib w.fs src := by simp [reload, hr, hf]
  rw [update_local lib w b src hsrc hne, hjwk, doLocalJwk_eq]
  rcases hbad with hfile | ⟨es, hfile, hdec⟩
  · exact ⟨_, by rw [hfile]⟩
  · refine ⟨{ b with _keys := [] ++ (decodeAll lib es).1 }, ?_⟩
    rw [hfile]
    dsimp only
    rw [doKeys_eq, hdec]
    rfl

lemma update_bad_der (w : World) (b : KeyBundle) (src : String) (hsrc : b.source = some src)
    (hne : src ≠ "") (hr : b.remote = false) (hf : b.fileformat = "der")
    (hk : b.keytype = "rsa") (e : Exc) (hbad : w.fs.rsaLoad src = .error e) :
    ∃ b', update lib w b = .error e b' := by
  rw [update_local lib w b src hsrc hne]
  simp only [reload, hr, hf, hk, reduceIte, show "der" ≠ "jwk" by decide, doLocalDer,
    run_bind, hbad]
  exact ⟨_, rfl⟩

/-- No failure of a reload is caught, and each propagates out of the read. -/
theorem refresh_failure_propagates (w : World) (b : KeyBundle) (src : String)
    (hsrc : b.source = some src) (hne : src ≠ "") :
    (b.remote = true → ∀ e, w.net b.request = .error e →
      ∃ b', update lib w b = .error e b' ∧ b'.timeOut = b.timeOut) ∧
    (b.remote = true → ∀ r, w.net b.request = .ok r → r.status ≠ 304 → r.status ≠ 200 →
      ∃ b', update lib w b = .ok () b' ∧ b'.timeOut = b.timeOut) ∧
    (b.remote = true → ∀ r e, w.net b.request = .ok r → r.status = 200 →
      (r.text = .error e ∨ ∃ es, r.text = .ok es ∧ (decodeAll lib es).2 = some e) →
      ∃ b', update lib w b = .error e b' ∧ b'.timeOut = w.done + b.cacheTime) ∧
    (b.remote = false → b.fileformat = "jwk" → ∀ e, (w.fs.jwkFile src = .error e ∨
      ∃ es, w.fs.jwkFile src = .ok es ∧ (decodeAll lib es).2 = some e) →
      ∃ b', update lib w b = .error e b') ∧
    (b.remote = false → b.fileformat = "der" → b.keytype = "rsa" → ∀ e,
      w.fs.rsaLoad src = .error e → ∃ b', update lib w b = .error e b') ∧
    (∀ e b', update lib w b = .error e b' → b.remote = true → b.timeOut < w.now →
      (∀ typ, get lib w typ b = .error e b') ∧ keys lib w b = .error e b' ∧
        jwks lib w b = .error e b') := by
  refine ⟨fun hr e hnet => ⟨_, update_transport lib w b src hsrc hne hr e hnet, rfl⟩,
    fun hr r hnet h304 h200 => ⟨_, update_status lib w b src hsrc hne hr r hnet h304 h200, rfl⟩,
    fun hr r e hnet h200 hbad => update_bad_body lib w b src hsrc hne hr r hnet h200 e hbad,
    fun hr hf e hbad => update_bad_jwk lib w b src hsrc hne hr hf e hbad,
    fun hr hf hk e hbad => update_bad_der lib w b src hsrc hne hr hf hk e hbad,
    fun e b' h hr ht => reads_of_refresh_error lib w b b' e ?_⟩
  rw [uptodate_eq, if_pos ⟨hr, ht⟩, h]

def sampleLib : Lib := ⟨fun _ _ => .error .valueError, fun n => toString n⟩

def sampleUrl : String := "https://op.example/jwks"

def sampleKey : Key :=
  { KeyClass.hmacKey.blank with kty := "hmac", use := .str "sig", kty_lower := rfl }

def sampleBundle : KeyBundle :=
  { _keys := [sampleKey], remote := true, verifySsl := true, cacheTime := 300, timeOut := 0,
    etag := "", cacheControl := none, source := some sampleUrl, fileformat := "jwk",
    keytype := "rsa", keyusage := none }

def sampleWorld (net : Request → Except Exc Response) : World :=
  { now := 10, done := 11, net := net, fs := ⟨fun _ => .error .valueError, fun _ => .error .valueError⟩ }

theorem refresh_failure_at_sample :
    sampleBundle.source = some sampleUrl ∧ sampleUrl ≠ "" ∧
      ∃ b', update sampleLib (sampleWorld fun _ => .error .transport) sampleBundle =
        .error .transport b' ∧ b'.timeOut = sampleBundle.timeOut :=
  ⟨rfl, by decide, (refresh_failure_propagates sampleLib (sampleWorld fun _ => .error .transport)
    sampleBundle sampleUrl rfl (by decide)).1 rfl .transport rfl⟩

/-- A failed GET leaves the bundle with no keys. -/
theorem failed_refresh_loses_keys :
    keys sampleLib (sampleWorld fun _ => .error .transport) sampleBundle =
        .error .transport { sampleBundle with _keys := [] } ∧
      keys sampleLib (sampleWorld fun _ => .ok ⟨500, .ok [], none, none⟩) sampleBundle =
        .ok [] { sampleBundle with _keys := [] } ∧
      sampleBundle._keys ≠ [] :=
  ⟨rfl, rfl, List.cons_ne_nil _ _⟩

lemma update_fetched (w : World) (b : KeyBundle) (src : String) (hsrc : b.source = some src)
    (hne : src ≠ "") (hr : b.remote = true) (r : Response) (hnet : w.net b.request = .ok r)
    (h200 : r.status = 200) (es : List Entry) (htext : r.text = .ok es)
    (hdec : (decodeAll lib es).2 = none) :
    update lib w b = .ok ()
      { b with
        _keys := [] ++ (decodeAll lib es).1, timeOut := w.done + b.cacheTime
        etag := r.etag.getD b.etag
        cacheControl := r.cacheControl.orElse (fun _ => b.cacheControl) } := by
  rw [update_remote lib w b src hsrc hne hr, doRemote_eq, request_clear, hnet]
  simp only [h200, reduceIte, show (200 : Nat) ≠ 304 by decide, htext, hdec, outcome]

/-- The conditional GET does not keep the bundle in step with the endpoint. -/
theorem conditional_fetch_incoherent (w : World) (b : KeyBundle) (src : String)
    (hsrc : b.source = some src) (hne : src ≠ "") (hr : b.remote = true)
    (hstale : b.timeOut < w.now) :
    (∀ r, w.net b.request = .ok r → r.status = 304 →
      keys lib w b = .ok [] { b with _keys := [], timeOut := w.done + b.cacheTime }) ∧
    (∀ r es, w.net b.request = .ok r → r.status = 200 → r.text = .ok es →
      (decodeAll lib es).2 = none → r.etag = none →
      ∃ b', keys lib w b = .ok (decodeAll lib es).1 b' ∧ b'._keys = (decodeAll lib es).1 ∧
        b'.etag = b.etag) := by
  have hup : uptodate lib w b = update lib w b := by rw [uptodate_eq, if_pos ⟨hr, hstale⟩]
  refine ⟨fun r hnet h304 => ?_, fun r es hnet h200 htext hdec hetag => ?_⟩
  · rw [keys_eq, hup, update_not_modified lib w b src hsrc hne hr r hnet h304]; rfl
  · rw [keys_eq, hup, update_fetched lib w b src hsrc hne hr r hnet h200 es htext hdec]
    exact ⟨_, by rw [List.nil_append]; rfl, List.nil_append _, by simp [hetag]⟩

theorem conditional_fetch_incoherent_at_sample :
    sampleBundle.source = some sampleUrl ∧ sampleUrl ≠ "" ∧ sampleBundle.remote = true ∧
      sampleBundle.timeOut < (sampleWorld fun _ => .ok ⟨304, .ok [], none, none⟩).now ∧
      keys sampleLib (sampleWorld fun _ => .ok ⟨304, .ok [], none, none⟩) sampleBundle =
        .ok [] { sampleBundle with _keys := [], timeOut := 311 } :=
  ⟨rfl, by decide, rfl, by decide, (conditional_fetch_incoherent sampleLib _ sampleBundle sampleUrl
    rfl (by decide) rfl (by decide)).1 _ rfl rfl⟩

/-- `_uptodate` refreshes only past `time_out`, an empty bundle included. -/
theorem empty_bundle_not_refetched (w : World) (b : KeyBundle) (hk : b._keys = [])
    (ht : w.now ≤ b.timeOut) (net : Request → Except Exc Response) :
    keys lib { w with net := net } b = .ok [] b := by
  rw [keys_eq, uptodate_eq, if_neg (fun h => absurd h.2 (by simpa using ht))]
  simp [afterRefresh, hk]

theorem empty_bundle_not_refetched_after_304 :
    ({ sampleBundle with _keys := [], timeOut := 311 } : KeyBundle)._keys = [] ∧
      (sampleWorld fun _ => .error .transport).now ≤ 311 ∧
      keys sampleLib { sampleWorld (fun _ => .error .transport) with now := 20 }
        { sampleBundle with _keys := [], timeOut := 311 } =
        .ok [] { sampleBundle with _keys := [], timeOut := 311 } :=
  ⟨rfl, by decide, empty_bundle_not_refetched sampleLib { sampleWorld fun _ => .error .transport with now := 20 }
    _ rfl (by decide) _⟩

end OicKeyio.Refresh
