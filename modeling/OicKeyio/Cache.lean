import Mathlib.Data.List.Chain
import OicKeyio.Refresh

set_option autoImplicit false

/-!
# Reads over time

A bundle as a state machine whose transitions are reads. `get`, `keys` and
`jwks` each leave the bundle `_uptodate` leaves, and that is the bundle itself
unless the read fetches: the bundle is remote, has a source and `now > time_out`.
A fetch changes `_keys`, `etag`, `cache_control` and, when the GET is answered
200 or 304, `time_out`; nothing else. Over any run of reads this gives the
cache's rate limit: after a fetch that was answered, the next fetch comes only
once its `done + cache_time` has passed.
-/
namespace OicKeyio.Cache
open KeyBundle

variable (lib : Lib)

def stateOf {σ α : Type} : EStateM.Result Exc σ α → σ
  | .ok _ s => s
  | .error _ s => s

/-- Whether a read at `w` fetches: the bundle is remote, has a source and is past `time_out`. -/
def fetches (w : World) (b : KeyBundle) : Bool :=
  b.remote && decide (b.timeOut < w.now) && b.source.getD "" != ""

def answered (w : World) (b : KeyBundle) : Bool :=
  match w.net b.request with
  | .ok r => r.status == 200 || r.status == 304
  | .error _ => false

lemma timeOut_lt_of_fetches {w : World} {b : KeyBundle} (h : fetches w b = true) :
    b.timeOut < w.now := by
  simp only [fetches, Bool.and_eq_true, decide_eq_true_eq] at h
  exact h.1.2

def refreshed (w : World) (b : KeyBundle) : KeyBundle := stateOf (uptodate lib w b)

lemma stateOf_keys (w : World) (b : KeyBundle) : stateOf (keys lib w b) = refreshed lib w b := by
  rw [keys_eq, refreshed]; cases uptodate lib w b <;> rfl

lemma stateOf_get (w : World) (typ : String) (b : KeyBundle) :
    stateOf (get lib w typ b) = refreshed lib w b := by
  rw [get_eq, refreshed]; cases uptodate lib w b <;> rfl

lemma stateOf_jwks (w : World) (b : KeyBundle) : stateOf (jwks lib w b) = refreshed lib w b := by
  rw [jwks_eq, refreshed]
  cases uptodate lib w b with
  | ok _ b' => dsimp only; split_ifs <;> rfl
  | error _ _ => rfl

lemma uptodate_fetch (w : World) (b : KeyBundle) :
    uptodate lib w b = if fetches w b then doRemote lib w { b with _keys := [] } else .ok () b := by
  rw [uptodate_eq, fetches]
  by_cases hr : b.remote = true
  · by_cases ht : b.timeOut < w.now
    · rw [update_eq]
      cases b.source with
      | none => simp [hr, ht]
      | some src => by_cases h : src = "" <;> simp [hr, ht, h, reload]
    · simp [hr, ht]
  · simp [hr]

@[simp] lemma stateOf_outcome {σ : Type} (o : Option Exc) (s : σ) : stateOf (outcome o s) = s := by
  cases o <;> rfl

lemma doRemote_state (w : World) (b : KeyBundle) :
    ∃ ks et cc, stateOf (doRemote lib w b) =
      { b with _keys := ks, etag := et, cacheControl := cc,
               timeOut := if answered w b then w.done + b.cacheTime else b.timeOut } := by
  rw [doRemote_eq]
  unfold answered
  cases w.net b.request with
  | error e => exact ⟨b._keys, b.etag, b.cacheControl, rfl⟩
  | ok r =>
    dsimp only
    by_cases h304 : r.status = 304
    · exact ⟨b._keys, b.etag, b.cacheControl, by simp [h304, stateOf]⟩
    by_cases h200 : r.status = 200
    · simp only [h200, reduceIte, show (200 : Nat) ≠ 304 by decide, beq_self_eq_true, Bool.true_or]
      cases r.text with
      | error e => exact ⟨b._keys, b.etag, b.cacheControl, rfl⟩
      | ok es =>
        cases hd : (decodeAll lib es).2
        · exact ⟨b._keys ++ (decodeAll lib es).1, r.etag.getD b.etag,
            r.cacheControl.orElse fun _ => b.cacheControl, by simp [hd]⟩
        · exact ⟨b._keys ++ (decodeAll lib es).1, b.etag, b.cacheControl, by simp [hd]⟩
    · exact ⟨b._keys, b.etag, b.cacheControl, by simp [h304, h200, stateOf]⟩

/-- The step lemma: what one read changes of the bundle. -/
theorem refreshed_shape (w : World) (b : KeyBundle) :
    ∃ ks et cc, refreshed lib w b =
      { b with _keys := ks, etag := et, cacheControl := cc,
               timeOut := if fetches w b && answered w b then w.done + b.cacheTime else b.timeOut } := by
  rw [refreshed, uptodate_fetch]
  by_cases hf : fetches w b
  · obtain ⟨ks, et, cc, h⟩ := doRemote_state lib w { b with _keys := [] }
    exact ⟨ks, et, cc, by rw [if_pos hf, h]; simp [hf]; rfl⟩
  · exact ⟨b._keys, b.etag, b.cacheControl, by simp [hf]; rfl⟩

lemma refreshed_of_not_fetches (w : World) (b : KeyBundle) (h : fetches w b = false) :
    refreshed lib w b = b := by
  rw [refreshed, uptodate_fetch, if_neg (by simp [h])]; rfl

/-- A run of reads, one per world, each from the bundle the last one left. -/
def readRun : List World → KeyBundle → KeyBundle
  | [], b => b
  | w :: ws, b => readRun ws (refreshed lib w b)

def fetchLog : List World → KeyBundle → List (World × KeyBundle)
  | [], _ => []
  | w :: ws, b =>
    if fetches w b then (w, b) :: fetchLog ws (refreshed lib w b)
    else fetchLog ws (refreshed lib w b)

/-- What the cache is configured with: the attributes no read changes. -/
structure Config where
  remote : Bool
  verifySsl : Bool
  cacheTime : Nat
  source : Option String
  fileformat : String
  keytype : String
  keyusage : Option (List String)
deriving DecidableEq

def config (b : KeyBundle) : Config :=
  ⟨b.remote, b.verifySsl, b.cacheTime, b.source, b.fileformat, b.keytype, b.keyusage⟩

lemma config_refreshed (w : World) (b : KeyBundle) : config (refreshed lib w b) = config b := by
  obtain ⟨ks, et, cc, h⟩ := refreshed_shape lib w b
  rw [h]; rfl

/-- No run of reads changes what the bundle is configured with. -/
theorem config_readRun (ws : List World) (b : KeyBundle) : config (readRun lib ws b) = config b := by
  induction ws generalizing b with
  | nil => rfl
  | cons w ws ih => rw [readRun, ih, config_refreshed]

def emptyServer : Request → Except Exc Response := fun _ => .ok ⟨200, .ok [], none, none⟩

def readAt (t : Nat) : World := { Refresh.sampleWorld emptyServer with now := t, done := t }

/-- Reads that do not reach `time_out` fetch nothing and change nothing. -/
theorem quiet_readRun (ws : List World) (b : KeyBundle) (hq : ∀ w ∈ ws, w.now ≤ b.timeOut) :
    fetchLog lib ws b = [] ∧ readRun lib ws b = b := by
  induction ws with
  | nil => exact ⟨rfl, rfl⟩
  | cons w ws ih =>
    have hf : fetches w b = false := by
      have := hq w (List.mem_cons_self _ _)
      simp [fetches]; omega
    have ih' := ih fun w' hw' => hq w' (List.mem_cons_of_mem _ hw')
    simp only [fetchLog, readRun, hf, refreshed_of_not_fetches lib w b hf, ih', if_false]
    exact ⟨rfl, trivial⟩

theorem quiet_readRun_after_fetch :
    (∀ w ∈ [readAt 100, readAt 310],
        w.now ≤ (refreshed Refresh.sampleLib (readAt 10) Refresh.sampleBundle).timeOut) ∧
      fetchLog Refresh.sampleLib [readAt 100, readAt 310]
          (refreshed Refresh.sampleLib (readAt 10) Refresh.sampleBundle) = [] ∧
      readRun Refresh.sampleLib [readAt 100, readAt 310]
          (refreshed Refresh.sampleLib (readAt 10) Refresh.sampleBundle) =
        refreshed Refresh.sampleLib (readAt 10) Refresh.sampleBundle :=
  have h : ∀ w ∈ [readAt 100, readAt 310],
      w.now ≤ (refreshed Refresh.sampleLib (readAt 10) Refresh.sampleBundle).timeOut := by
    simp only [List.mem_cons, List.mem_singleton, List.not_mem_nil, or_false]
    rintro w (rfl | rfl) <;> decide
  ⟨h, quiet_readRun Refresh.sampleLib _ _ h⟩

lemma fetchLog_head (ws : List World) (b : KeyBundle) (q : World × KeyBundle)
    (h : q ∈ (fetchLog lib ws b).head?) : q.2 = b ∧ fetches q.1 b = true := by
  induction ws generalizing b with
  | nil => cases h
  | cons w ws ih =>
    unfold fetchLog at h
    by_cases hf : fetches w b
    · rw [if_pos hf, List.head?_cons, Option.mem_def, Option.some.injEq] at h
      subst h
      exact ⟨rfl, hf⟩
    · rw [if_neg hf, refreshed_of_not_fetches lib w b (by simpa using hf)] at h
      exact ih b h

/-- The rate limit: after a fetch answered at `done`, the next is past `done + cache_time`. -/
theorem fetch_spacing (ws : List World) (b : KeyBundle) :
    (fetchLog lib ws b).Chain'
      (fun p q => answered p.1 p.2 = true → p.1.done + p.2.cacheTime < q.1.now) := by
  induction ws generalizing b with
  | nil => exact List.chain'_nil
  | cons w ws ih =>
    unfold fetchLog
    by_cases hf : fetches w b
    · rw [if_pos hf, List.chain'_cons']
      refine ⟨fun q hq hans => ?_, ih _⟩
      have ht := timeOut_lt_of_fetches (fetchLog_head lib ws _ q hq).2
      obtain ⟨ks, et, cc, h⟩ := refreshed_shape lib w b
      rw [h] at ht
      simpa [hf, hans] using ht
    · rw [if_neg hf, refreshed_of_not_fetches lib w b (by simpa using hf)]
      exact ih b

/-- Reads at 10, 200 and 400 of a bundle that caches for 300: the first and the
last fetch. -/
example :
    (fetchLog Refresh.sampleLib [readAt 10, readAt 200, readAt 400] Refresh.sampleBundle).map
      (·.1.now) = [10, 400] := rfl

end OicKeyio.Cache
