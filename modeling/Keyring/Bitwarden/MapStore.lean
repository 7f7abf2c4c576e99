/-
A key store that is a map.

Stored keys are looked up by id and local keys by position, so a new local key is always
fresh; a removed one leaves its position empty.  Every law of `Crypto` holds of it, for
any cipher suite; the concrete runs of this development use it over `plainSuite`, where a
wrapped key is the text of the key that opens it.
-/
import Keyring.Bitwarden.KeyStore
import Mathlib.Logic.Function.Basic

namespace Keyring.Bitwarden

/-- Stored keys by id, local keys by position. -/
structure MapStore (K P : Type) where
  symmetric : BitwardenSymmetricKeyId → Option K
  asymmetric : BitwardenAsymmetricKeyId → Option P
  localSymmetric : List (Option K)
  localAsymmetric : List P

namespace MapStore

variable {K P : Type}

def empty : MapStore K P := ⟨fun _ => none, fun _ => none, [], []⟩

def getSymmetric (s : MapStore K P) : BitwardenSymmetricKeyId → Option K
  | .localKey n => s.localSymmetric[n]?.join
  | id => s.symmetric id

def getAsymmetric (s : MapStore K P) : BitwardenAsymmetricKeyId → Option P
  | .localKey n => s.localAsymmetric[n]?
  | id => s.asymmetric id

def addSymmetric (s : MapStore K P) (k : K) : BitwardenSymmetricKeyId × MapStore K P :=
  (.localKey s.localSymmetric.length, { s with localSymmetric := s.localSymmetric ++ [some k] })

def addAsymmetric (s : MapStore K P) (p : P) : BitwardenAsymmetricKeyId × MapStore K P :=
  (.localKey s.localAsymmetric.length, { s with localAsymmetric := s.localAsymmetric ++ [p] })

def setSymmetric (s : MapStore K P) (id : BitwardenSymmetricKeyId) (k : K) : MapStore K P :=
  { s with symmetric := Function.update s.symmetric id (some k) }

def setAsymmetric (s : MapStore K P) (id : BitwardenAsymmetricKeyId) (p : P) : MapStore K P :=
  { s with asymmetric := Function.update s.asymmetric id (some p) }

@[simp] theorem addSymmetric_fst (s : MapStore K P) (k : K) :
    (s.addSymmetric k).1 = .localKey s.localSymmetric.length := rfl

@[simp] theorem addAsymmetric_fst (s : MapStore K P) (p : P) :
    (s.addAsymmetric p).1 = .localKey s.localAsymmetric.length := rfl

@[simp] theorem getAsymmetric_addSymmetric (s : MapStore K P) (k : K) :
    (s.addSymmetric k).2.getAsymmetric = s.getAsymmetric := rfl

@[simp] theorem getSymmetric_addAsymmetric (s : MapStore K P) (p : P) :
    (s.addAsymmetric p).2.getSymmetric = s.getSymmetric := rfl

@[simp] theorem getAsymmetric_setSymmetric (s : MapStore K P) (id : BitwardenSymmetricKeyId)
    (k : K) : (s.setSymmetric id k).getAsymmetric = s.getAsymmetric := rfl

@[simp] theorem getSymmetric_setAsymmetric (s : MapStore K P) (id : BitwardenAsymmetricKeyId)
    (p : P) : (s.setAsymmetric id p).getSymmetric = s.getSymmetric := rfl

theorem getElem?_snoc {α : Type} (l : List α) (a : α) (n : Nat) :
    (l ++ [a])[n]? = if n = l.length then some a else l[n]? := by
  by_cases h : n = l.length
  · simp [h]
  · rw [if_neg h]
    by_cases hlt : n < l.length
    · exact List.getElem?_append_left hlt
    · rw [List.getElem?_eq_none (by simp; omega), List.getElem?_eq_none (by omega)]

theorem getSymmetric_addSymmetric (s : MapStore K P) (k : K) (id : BitwardenSymmetricKeyId) :
    (s.addSymmetric k).2.getSymmetric id =
      if id = (s.addSymmetric k).1 then some k else s.getSymmetric id := by
  cases id with
  | localKey n =>
      simp only [addSymmetric, getSymmetric, getElem?_snoc,
        BitwardenSymmetricKeyId.localKey.injEq]
      split <;> rfl
  | user => simp [addSymmetric, getSymmetric]
  | organization o => simp [addSymmetric, getSymmetric]

theorem getAsymmetric_addAsymmetric (s : MapStore K P) (p : P)
    (id : BitwardenAsymmetricKeyId) :
    (s.addAsymmetric p).2.getAsymmetric id =
      if id = (s.addAsymmetric p).1 then some p else s.getAsymmetric id := by
  cases id with
  | localKey n => simpa [addAsymmetric, getAsymmetric] using getElem?_snoc _ _ _
  | userPrivateKey => simp [addAsymmetric, getAsymmetric]

theorem getSymmetric_setSymmetric (s : MapStore K P) {dst : BitwardenSymmetricKeyId}
    (hdst : dst.isLocal = false) (k : K) (id : BitwardenSymmetricKeyId) :
    (s.setSymmetric dst k).getSymmetric id = if id = dst then some k else s.getSymmetric id := by
  cases id <;> cases dst <;>
    simp_all [setSymmetric, getSymmetric, BitwardenSymmetricKeyId.isLocal, Function.update_apply]

theorem getAsymmetric_setAsymmetric (s : MapStore K P) {dst : BitwardenAsymmetricKeyId}
    (hdst : dst.isLocal = false) (p : P) (id : BitwardenAsymmetricKeyId) :
    (s.setAsymmetric dst p).getAsymmetric id =
      if id = dst then some p else s.getAsymmetric id := by
  cases id <;> cases dst <;>
    simp_all [setAsymmetric, getAsymmetric, BitwardenAsymmetricKeyId.isLocal]

/-- Copy a local key to a stored id; anything else is refused. -/
def persistSymmetric (s : MapStore K P) (src dst : BitwardenSymmetricKeyId) :
    Bool × MapStore K P :=
  if src.isLocal && !dst.isLocal then
    match s.getSymmetric src with
    | some k => (true, s.setSymmetric dst k)
    | none => (false, s)
  else (false, s)

def persistAsymmetric (s : MapStore K P) (src dst : BitwardenAsymmetricKeyId) :
    Bool × MapStore K P :=
  if src.isLocal && !dst.isLocal then
    match s.getAsymmetric src with
    | some p => (true, s.setAsymmetric dst p)
    | none => (false, s)
  else (false, s)

/-- Keep the symmetric keys a predicate accepts. -/
def retain (s : MapStore K P) (keep : BitwardenSymmetricKeyId → Bool) : MapStore K P :=
  { s with
    symmetric := fun id => if keep id then s.symmetric id else none
    localSymmetric := s.localSymmetric.mapIdx fun n k => if keep (.localKey n) then k else none }

theorem getSymmetric_retain (s : MapStore K P) (keep : BitwardenSymmetricKeyId → Bool)
    (id : BitwardenSymmetricKeyId) :
    (s.retain keep).getSymmetric id = if keep id then s.getSymmetric id else none := by
  cases id with
  | localKey n =>
      simp only [retain, getSymmetric, List.getElem?_mapIdx]
      cases s.localSymmetric[n]? <;> simp
  | user => rfl
  | organization o => rfl

/-- Drop the local keys. -/
def dropLocal (s : MapStore K P) : MapStore K P :=
  { s with localSymmetric := [], localAsymmetric := [] }

theorem persistSymmetric_eq {s : MapStore K P} {src dst : BitwardenSymmetricKeyId}
    (h : (s.persistSymmetric src dst).1 = true) :
    dst.isLocal = false ∧ ∃ k, s.getSymmetric src = some k ∧
      (s.persistSymmetric src dst).2 = s.setSymmetric dst k := by
  unfold persistSymmetric at h ⊢
  split at h
  · rename_i hids
    obtain ⟨-, hdst⟩ := Bool.and_eq_true_iff.mp hids
    cases hk : s.getSymmetric src with
    | none => simp [hk] at h
    | some k => exact ⟨by simpa using hdst, k, rfl, by simp [hids]⟩
  · simp at h

theorem persistAsymmetric_eq {s : MapStore K P} {src dst : BitwardenAsymmetricKeyId}
    (h : (s.persistAsymmetric src dst).1 = true) :
    dst.isLocal = false ∧ ∃ p, s.getAsymmetric src = some p ∧
      (s.persistAsymmetric src dst).2 = s.setAsymmetric dst p := by
  unfold persistAsymmetric at h ⊢
  split at h
  · rename_i hids
    obtain ⟨-, hdst⟩ := Bool.and_eq_true_iff.mp hids
    cases hp : s.getAsymmetric src with
    | none => simp [hp] at h
    | some p => exact ⟨by simpa using hdst, p, rfl, by simp [hids]⟩
  · simp at h

/-- What a refused call leaves behind is the store it was given. -/
theorem persistSymmetric_refused {s : MapStore K P} {src dst : BitwardenSymmetricKeyId}
    (h : (s.persistSymmetric src dst).1 = false) : (s.persistSymmetric src dst).2 = s := by
  unfold persistSymmetric at h ⊢
  split
  · cases hk : s.getSymmetric src with
    | none => rfl
    | some k => simp_all
  · rfl

theorem persistAsymmetric_refused {s : MapStore K P} {src dst : BitwardenAsymmetricKeyId}
    (h : (s.persistAsymmetric src dst).1 = false) : (s.persistAsymmetric src dst).2 = s := by
  unfold persistAsymmetric at h ⊢
  split
  · cases hp : s.getAsymmetric src with
    | none => rfl
    | some p => simp_all
  · rfl

end MapStore

/-- The map as the key store of a cipher suite. -/
def mapCrypto (p : CipherSuite) : Crypto where
  toCipherSuite := p
  KeyStore := MapStore p.SymmetricCryptoKey p.PrivateKey
  symmetric := MapStore.getSymmetric
  asymmetric := MapStore.getAsymmetric
  default := MapStore.empty
  endContext := MapStore.dropLocal
  hasSymmetricKey s id := (s.getSymmetric id).isSome
  hasAsymmetricKey s id := (s.getAsymmetric id).isSome
  addLocalSymmetricKey := MapStore.addSymmetric
  getSymmetricKeyAlgorithm s id :=
    match s.getSymmetric id with
    | none => .error "missing key"
    | some k => p.algorithm k
  unwrapPrivateKey s base e :=
    match (s.getSymmetric base).bind (p.unwrapPrivate · e) with
    | none => (none, s)
    | some k => (some (s.addAsymmetric k).1, (s.addAsymmetric k).2)
  persistAsymmetricKey := MapStore.persistAsymmetric
  persistSymmetricKey := MapStore.persistSymmetric
  retainSymmetricKeys := MapStore.retain
  decapsulateKeyUnsigned s base dst e :=
    if dst.isLocal then (false, s)
    else
      match (s.getAsymmetric base).bind (p.decapsulate · e) with
      | none => (false, s)
      | some k => (true, s.setSymmetric dst k)
  unwrapSymmetricKey s base e :=
    match (s.getSymmetric base).bind (p.unwrapSymmetric · e) with
    | none => (none, s)
    | some k => (some (s.addSymmetric k).1, (s.addSymmetric k).2)
  decrypt s id e :=
    match s.getSymmetric id with
    | none => .error "missing key"
    | some k => p.decryptText k e
  missingKey _ := "missing key"
  hasSymmetricKey_eq _ _ := rfl
  hasAsymmetricKey_eq _ _ := rfl
  algorithm_eq s id k h := by simp [h]
  decrypt_eq s id e := by cases s.getSymmetric id <;> rfl
  endContext_symmetric s id := by cases id <;> rfl
  endContext_asymmetric s id := by cases id <;> rfl
  addLocal_symmetric := MapStore.getSymmetric_addSymmetric
  addLocal_asymmetric _ _ := rfl
  addLocal_isLocal _ _ := rfl
  unwrapPrivate_ok s base e id h := by
    cases hk : (s.getSymmetric base).bind (p.unwrapPrivate · e) with
    | none => simp [hk] at h
    | some k =>
        simp only [hk, Option.some.injEq] at h
        subst h
        exact ⟨rfl, by simp [MapStore.getAsymmetric_addAsymmetric]⟩
  unwrapPrivate_symmetric s base e := by
    cases hk : (s.getSymmetric base).bind (p.unwrapPrivate · e) <;> simp
  unwrapPrivate_frame s base e id h := by
    cases hk : (s.getSymmetric base).bind (p.unwrapPrivate · e) with
    | none => simp
    | some k =>
        rw [MapStore.getAsymmetric_addAsymmetric, if_neg]
        rintro rfl
        simp [BitwardenAsymmetricKeyId.isLocal] at h
  unwrapSymmetric_ok s base e id h := by
    obtain ⟨k, hbase⟩ : ∃ k, s.getSymmetric base = some k := by
      cases hb : s.getSymmetric base with
      | none => simp [hb] at h
      | some k => exact ⟨k, rfl⟩
    cases hk : p.unwrapSymmetric k e with
    | none => simp [hbase, hk] at h
    | some k' =>
        simp only [hbase, hk, Option.bind_some, Option.some.injEq] at h
        subst h
        exact ⟨rfl, k, hbase, by simp [hbase, hk, MapStore.getSymmetric_addSymmetric]⟩
  unwrapSymmetric_isSome s base e := by
    cases hk : (s.getSymmetric base).bind (p.unwrapSymmetric · e) <;> simp
  unwrapSymmetric_frame s base e id h := by
    cases hk : (s.getSymmetric base).bind (p.unwrapSymmetric · e) with
    | none => simp
    | some k =>
        rw [MapStore.getSymmetric_addSymmetric, if_neg]
        rintro rfl
        simp [BitwardenSymmetricKeyId.isLocal] at h
  unwrapSymmetric_asymmetric s base e := by
    cases hk : (s.getSymmetric base).bind (p.unwrapSymmetric · e) <;> simp
  persistSymmetric_ok s src dst hsrc hdst h := by
    obtain ⟨k, hk⟩ := Option.isSome_iff_exists.mp h
    simp [MapStore.persistSymmetric, hsrc, hdst, hk]
  persistSymmetric_set s src dst h := by
    obtain ⟨hdst, k, hk, hset⟩ := MapStore.persistSymmetric_eq h
    rw [hset, MapStore.getSymmetric_setSymmetric s hdst, if_pos rfl, hk]
    exact ⟨rfl, rfl⟩
  persistSymmetric_frame s src dst id _ hne := by
    cases h : (s.persistSymmetric src dst).1 with
    | false => rw [MapStore.persistSymmetric_refused h]
    | true =>
        obtain ⟨hdst, k, -, hset⟩ := MapStore.persistSymmetric_eq h
        rw [hset, MapStore.getSymmetric_setSymmetric s hdst, if_neg hne]
  persistSymmetric_asymmetric s src dst := by
    cases h : (s.persistSymmetric src dst).1 with
    | false => rw [MapStore.persistSymmetric_refused h]
    | true =>
        obtain ⟨-, k, -, hset⟩ := MapStore.persistSymmetric_eq h
        rw [hset, MapStore.getAsymmetric_setSymmetric]
  persistAsymmetric_ok s src dst hsrc hdst h := by
    obtain ⟨k, hk⟩ := Option.isSome_iff_exists.mp h
    simp [MapStore.persistAsymmetric, hsrc, hdst, hk]
  persistAsymmetric_set s src dst h := by
    obtain ⟨hdst, k, hk, hset⟩ := MapStore.persistAsymmetric_eq h
    rw [hset, MapStore.getAsymmetric_setAsymmetric s hdst, if_pos rfl, hk]
  persistAsymmetric_frame s src dst id _ hne := by
    cases h : (s.persistAsymmetric src dst).1 with
    | false => rw [MapStore.persistAsymmetric_refused h]
    | true =>
        obtain ⟨hdst, k, -, hset⟩ := MapStore.persistAsymmetric_eq h
        rw [hset, MapStore.getAsymmetric_setAsymmetric s hdst, if_neg hne]
  persistAsymmetric_symmetric s src dst := by
    cases h : (s.persistAsymmetric src dst).1 with
    | false => rw [MapStore.persistAsymmetric_refused h]
    | true =>
        obtain ⟨-, k, -, hset⟩ := MapStore.persistAsymmetric_eq h
        rw [hset, MapStore.getSymmetric_setAsymmetric]
  retain_symmetric := MapStore.getSymmetric_retain
  retain_asymmetric _ _ := rfl
  decapsulate_set s base dst e h := by
    cases hdst : dst.isLocal with
    | true => simp [hdst] at h
    | false =>
        obtain ⟨q, hbase⟩ : ∃ q, s.getAsymmetric base = some q := by
          cases hb : s.getAsymmetric base with
          | none => simp [hdst, hb] at h
          | some q => exact ⟨q, rfl⟩
        cases hk : p.decapsulate q e with
        | none => simp [hdst, hbase, hk] at h
        | some k =>
            refine ⟨q, k, hbase, hk, ?_⟩
            simp [hbase, hk, MapStore.getSymmetric_setSymmetric s hdst]
  decapsulate_ok s base dst e q k hdst hq hk := by simp [hdst, hq, hk]
  decapsulate_frame s base dst e id hne := by
    cases hdst : dst.isLocal with
    | true => simp
    | false =>
        cases hk : (s.getAsymmetric base).bind (p.decapsulate · e) <;>
          simp [MapStore.getSymmetric_setSymmetric s hdst, hne]
  decapsulate_asymmetric s base dst e := by
    cases hdst : dst.isLocal with
    | true => simp
    | false => cases hk : (s.getAsymmetric base).bind (p.decapsulate · e) <;> simp

/-- A suite without secrets: a wrapped key opens under the key it spells, and everything
else is its own plaintext.  The empty text is no ciphertext. -/
def plainSuite : CipherSuite where
  EncString := String
  UnsignedSharedKey := String
  MasterKey := String
  SymmetricCryptoKey := String
  PrivateKey := String
  parseEncString s := if s = "" then none else some s
  parseSharedKey s := if s = "" then none else some s
  derive password _ _ := some password
  decryptUserKey master e := if e = master then some e else none
  algorithm _ := .ok .aes256CbcHmac
  unwrapPrivate k e := if e = k then some e else none
  unwrapSymmetric k e := if e = k then some e else none
  decapsulate _ e := some e
  decryptText _ e := .ok e
  showUuid id := toString id.bits.toNat

end Keyring.Bitwarden
