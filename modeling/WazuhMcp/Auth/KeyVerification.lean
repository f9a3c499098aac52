import WazuhMcp.Auth.ApiKey

/-!
# The verification of an API key

When `verify` comes to the right verdict: a record exactly for a key that is live and whose hash the
plaintext has, with the owner that the entry names, and no exception. The constructor has looked at two
fields of an entry only. An `expires_at` without an offset, such as a YAML date, and a key without an
owner raise, where argon2 raises nothing but what it documents.

* `verify_of_grants` and `verify_of_not_grants`: what `verify` does on a live key and on another one.
* `judges_iff`: the verdict is right exactly if the key is not in the file, is revoked, or has no
  expiry without an offset and, if it is granted, an owner.
-/

namespace WazuhMcp

open Fallible

/-! ## What grants a key -/

namespace ApiKeyEntry

variable (checker : KeyChecker) (utcNow : ℚ) (entry : ApiKeyEntry) (plaintext : String)

/-- The entry is not revoked. -/
def Live : Prop := (entry.getValue "revoked").truthy = false

/-- The entry has no expiry, or one strictly in the future. -/
def Unexpired : Prop :=
  entry.expiry checker = none ∨ ∃ t, entry.expiry checker = some (some (.aware t)) ∧ utcNow < t

/-- The plaintext is the one that was hashed. -/
def Matches : Prop :=
  ∃ hash, entry.get "hash" = some (.str hash) ∧ checker.verifyHash hash plaintext = .verified

/-- The key is live and the plaintext is its own. -/
def Grants : Prop := entry.Live ∧ entry.Unexpired checker utcNow ∧ entry.Matches checker plaintext

/-- A key that is not revoked has no expiry without an offset; if it is granted, it has an owner. -/
def Settled : Prop :=
  (entry.Live → entry.expiry checker ≠ some (some .naive)) ∧
    (entry.Grants checker utcNow plaintext → entry.Complete)

end ApiKeyEntry

/-- The record of an entry: its tenant, its user and its role. -/
structure ApiKeyRecord.OfEntry (record : ApiKeyRecord) (keyId : String) (entry : ApiKeyEntry) : Prop where
  keyId : record.keyId = keyId
  tenantId : entry.text "tenant_id" = .ok record.tenantId
  userId : entry.text "user_id" = .ok record.userId
  rbacRole : entry.text "rbac_role" = .ok record.rbacRole

theorem ApiKeyEntry.record_eq_ok {entry : ApiKeyEntry} {keyId : String} {record : ApiKeyRecord}
    (h : entry.record keyId = .ok record) : record.OfEntry keyId entry := by
  obtain ⟨tenantId, htenant, h⟩ := bind_eq_ok.mp h
  obtain ⟨userId, huser, h⟩ := bind_eq_ok.mp h
  obtain ⟨rbacRole, hrole, h⟩ := bind_eq_ok.mp h
  obtain rfl := Except.ok.inj h
  exact ⟨rfl, htenant, huser, hrole⟩

/-- The hasher returns, or raises its documented errors. -/
def KeyChecker.Documented (checker : KeyChecker) : Prop :=
  ∀ hash plaintext name, checker.verifyHash hash plaintext ≠ .raised name

/-! ## What `verify` does -/

namespace YamlApiKeyStore

variable {store : YamlApiKeyStore} {checker : KeyChecker} {utcNow : ℚ} {keyId plaintext : String}
  {entry : ApiKeyEntry}

theorem verify_of_not_live (hget : store.records.get keyId = some entry) (h : ¬ entry.Live) :
    store.verify checker utcNow keyId plaintext = .ok none := by
  unfold verify
  rw [hget]
  exact if_pos (Bool.of_not_eq_false h)

/-- What the verdict of the hasher is turned into. -/
def ofVerdict (keyId : String) (entry : ApiKeyEntry) : HashVerdict → Except Exn (Option ApiKeyRecord)
  | .rejected => .ok none
  | .raised name => .error (.exception name)
  | .verified => some <$> entry.record keyId

/-- On a key that is not revoked: the expiry, and then the hash. -/
theorem verify_of_live (hget : store.records.get keyId = some entry) (h : entry.Live) {hash : String}
    (hhash : entry.get "hash" = some (.str hash)) :
    store.verify checker utcNow keyId plaintext = (do
      let expired ← entry.expired checker utcNow
      if expired then .ok none else ofVerdict keyId entry (checker.verifyHash hash plaintext)) := by
  obtain ⟨hash', hhash', htext⟩ := text_hash hget
  obtain rfl : hash' = hash := by
    rw [hhash] at hhash'
    exact (YamlValue.str.inj (Option.some.inj hhash')).symm
  have hlive : ¬ (entry.getValue "revoked").truthy = true := by
    rw [h]
    exact Bool.false_ne_true
  unfold verify
  rw [hget]
  show (if _ then _ else _) = _
  rw [if_neg hlive, htext]
  rfl

theorem expired_of_unexpired (h : entry.Unexpired checker utcNow) :
    entry.expired checker utcNow = .ok false := by
  unfold ApiKeyEntry.expired
  rcases h with h | ⟨t, h, hlt⟩
  · rw [h]
  · rw [h]
    simp [hlt]

theorem expired_of_not_unexpired (h : ¬ entry.Unexpired checker utcNow)
    (hoffset : entry.expiry checker ≠ some (some .naive)) :
    entry.expired checker utcNow = .ok true := by
  unfold ApiKeyEntry.Unexpired at h
  unfold ApiKeyEntry.expired
  rcases hexp : entry.expiry checker with - | - | - | t
  · exact absurd (.inl hexp) h
  · rfl
  · exact absurd hexp hoffset
  · have hle : t ≤ utcNow := by
      by_contra hlt
      exact h (.inr ⟨t, hexp, not_le.mp hlt⟩)
    simp [hle]

/-- A key that is granted gives its record, if it has one. -/
theorem verify_of_grants (hget : store.records.get keyId = some entry)
    (h : entry.Grants checker utcNow plaintext) :
    store.verify checker utcNow keyId plaintext = some <$> entry.record keyId := by
  obtain ⟨hlive, hexpired, hash, hhash, hverified⟩ := h
  rw [verify_of_live hget hlive hhash, expired_of_unexpired hexpired, hverified]
  rfl

/-- A key that is not granted gives nothing, if its expiry can be compared with the clock. -/
theorem verify_of_not_grants (hdoc : checker.Documented) (hget : store.records.get keyId = some entry)
    (hoffset : entry.Live → entry.expiry checker ≠ some (some .naive))
    (h : ¬ entry.Grants checker utcNow plaintext) :
    store.verify checker utcNow keyId plaintext = .ok none := by
  by_cases hlive : entry.Live
  · obtain ⟨hash, hhash, -⟩ := store.hashed keyId entry hget
    rw [verify_of_live hget hlive hhash]
    by_cases hexpired : entry.Unexpired checker utcNow
    · rw [expired_of_unexpired hexpired]
      cases hverdict : checker.verifyHash hash plaintext with
      | rejected => rfl
      | raised name => exact absurd hverdict (hdoc _ _ _)
      | verified => exact absurd ⟨hlive, hexpired, hash, hhash, hverdict⟩ h
    · rw [expired_of_not_unexpired hexpired (hoffset hlive)]
      rfl
  · exact verify_of_not_live hget hlive

/-- An expiry without an offset raises. -/
theorem verify_of_naive (hget : store.records.get keyId = some entry) (hlive : entry.Live)
    (h : entry.expiry checker = some (some .naive)) :
    store.verify checker utcNow keyId plaintext = .error Exn.typeError := by
  obtain ⟨hash, hhash, -⟩ := store.hashed keyId entry hget
  rw [verify_of_live hget hlive hhash, ApiKeyEntry.expired, h]
  rfl

/-! ## The verdict -/

/-- `verify` does not raise; it returns a record exactly for a key that the store has and that is
granted, and the record is that of its entry. -/
def Judges (store : YamlApiKeyStore) (checker : KeyChecker) (utcNow : ℚ) (keyId plaintext : String) :
    Prop :=
  ∃ found : Option ApiKeyRecord, store.verify checker utcNow keyId plaintext = .ok found ∧
    (found.isSome ↔ ∃ entry, store.records.get keyId = some entry ∧
      entry.Grants checker utcNow plaintext) ∧
    ∀ record, found = some record →
      ∃ entry, store.records.get keyId = some entry ∧ record.OfEntry keyId entry

/-- **The verdict is right exactly if the entry of the key, if there is one, is settled.** -/
theorem judges_iff (store : YamlApiKeyStore) (checker : KeyChecker) (hdoc : checker.Documented)
    (utcNow : ℚ) (keyId plaintext : String) :
    store.Judges checker utcNow keyId plaintext ↔
      ∀ entry, store.records.get keyId = some entry → entry.Settled checker utcNow plaintext := by
  cases hget : store.records.get keyId with
  | none =>
    refine iff_of_true ⟨none, ?_, ?_, ?_⟩ ?_
    · unfold verify
      rw [hget]
    · simp [hget]
    · rintro record ⟨⟩
    · rintro entry ⟨⟩
  | some entry =>
    simp only [Option.some.injEq, forall_eq']
    constructor
    · rintro ⟨found, hfound, -, -⟩
      refine ⟨fun hlive hnaive => ?_, fun hgrants => ?_⟩
      · rw [verify_of_naive hget hlive hnaive] at hfound
        cases hfound
      · rw [verify_of_grants hget hgrants] at hfound
        exact ApiKeyEntry.succeeds_record.mp (succeeds_map.mp ⟨found, hfound⟩)
    · rintro ⟨hoffset, hcomplete⟩
      by_cases hgrants : entry.Grants checker utcNow plaintext
      · obtain ⟨record, hrecord⟩ := (@ApiKeyEntry.succeeds_record entry keyId).mpr (hcomplete hgrants)
        refine ⟨some record, ?_, ?_, ?_⟩
        · rw [verify_of_grants hget hgrants, hrecord]
          rfl
        · simp [hget, hgrants]
        · rintro _ ⟨⟩
          exact ⟨entry, hget, ApiKeyEntry.record_eq_ok hrecord⟩
      · refine ⟨none, verify_of_not_grants hdoc hget hoffset hgrants, ?_, ?_⟩
        · simp [hget, hgrants]
        · rintro record ⟨⟩

/-- A hash, and a key that has it and runs out on a day. -/
def datedHash : String := "$argon2id$v=19$m=65536,t=3,p=4$c2FsdHNhbHQ$aGFzaA"

def datedEntry : ApiKeyEntry :=
  [("key_id", .str "wzk_acme_001"), ("hash", .str datedHash), ("tenant_id", .str "acme"),
    ("user_id", .str "alice"), ("rbac_role", .str "analyst"),
    ("expires_at", .other true (some "2030-01-01"))]

/-- The file with that key. -/
def datedStore : YamlApiKeyStore := empty.file "wzk_acme_001" datedHash datedEntry rfl rfl (by decide +kernel)

/-- A hasher that knows one secret, and what a day without an offset is read as. -/
def datedChecker : KeyChecker where
  verifyHash hash plaintext := if hash = datedHash ∧ plaintext = "s3cret" then .verified else .rejected
  fromIsoFormat text := if text = "2030-01-01" then some .naive else none

theorem documented_datedChecker : datedChecker.Documented := by
  intro hash plaintext name
  unfold datedChecker
  by_cases h : hash = datedHash ∧ plaintext = "s3cret" <;> simp [h]

/-- The expiry of the key cannot be compared with the clock. -/
theorem judges_iff_dated :
    (datedStore.Judges datedChecker 0 "wzk_acme_001" "s3cret" ↔
      ∀ entry, datedStore.records.get "wzk_acme_001" = some entry →
        entry.Settled datedChecker 0 "s3cret") :=
  judges_iff datedStore datedChecker documented_datedChecker 0 "wzk_acme_001" "s3cret"

theorem load_dated : load (some [some datedEntry]) = .ok datedStore := by
  rfl

/-- A file that the constructor accepts, with a key whose expiry is a date, on which `verify` raises. -/
theorem not_judges_dated :
    ¬ ∀ (entries : Option (List (Option ApiKeyEntry))) (store : YamlApiKeyStore),
      load entries = .ok store → ∀ checker : KeyChecker, checker.Documented →
        ∀ (utcNow : ℚ) (keyId plaintext : String), store.Judges checker utcNow keyId plaintext := by
  intro h
  obtain ⟨found, hfound, -⟩ :=
    h _ _ load_dated datedChecker documented_datedChecker 0 "wzk_acme_001" "s3cret"
  have hnaive := @verify_of_naive datedStore datedChecker 0 "wzk_acme_001" "s3cret" datedEntry rfl rfl rfl
  rw [hnaive] at hfound
  cases hfound

end YamlApiKeyStore

end WazuhMcp
