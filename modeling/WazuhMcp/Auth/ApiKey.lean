import WazuhMcp.Auth.TokenFactory

/-!
# API keys

`YamlApiKeyStore` takes the entries of a key file over as they stand, once it has seen that each has a
`key_id` of its own and an argon2id `hash`. What else an entry should have is read when a token names
it: a key without an owner, and one whose expiry has no time zone, are found out while a request is
authenticated (`succeeds_verify`).

What argon2 makes of a hash, and how an ISO date is read, are parameters.
-/

namespace WazuhMcp

open Fallible

/-- A value of a key file. -/
inductive YamlValue where
  | null
  | str (s : String)
  /-- a value of another type: its truth value, and what `str` makes of it, if it does not raise a
  `ValueError` -/
  | other (truthy : Bool) (text : Option String)

/-- `bool(x)` -/
def YamlValue.truthy : YamlValue → Bool
  | .null => false
  | .str s => s != ""
  | .other truthy _ => truthy

/-- `str(x)` -/
def YamlValue.pyStr : YamlValue → Option String
  | .null => some "None"
  | .str s => some s
  | .other _ text => text

/-- What `datetime.fromisoformat` gives: a time without an offset, or a point in time. -/
inductive IsoTime where
  | naive
  | aware (t : ℚ)

/-- What `PasswordHasher.verify` does: it returns, raises a `VerificationError` or an
`InvalidHashError`, or raises something else. -/
inductive HashVerdict where
  | verified
  | rejected
  | raised (name : String)

/-- What the store does not do itself. -/
structure KeyChecker where
  /-- `PasswordHasher().verify(hash, plaintext)` -/
  verifyHash : String → String → HashVerdict
  /-- `datetime.fromisoformat(text)`, if it does not raise a `ValueError` -/
  fromIsoFormat : String → Option IsoTime

/-- An entry of a key file. -/
abbrev ApiKeyEntry := Dict String YamlValue

/-- `ApiKeyRecord` -/
structure ApiKeyRecord where
  keyId : String
  tenantId : String
  userId : String
  rbacRole : String

namespace ApiKeyEntry

variable (checker : KeyChecker) (utcNow : ℚ) (entry : ApiKeyEntry)

/-- `entry.get(name)` -/
def getValue (name : String) : YamlValue := (entry.get name).getD .null

/-- `str(entry[name])` -/
def text (name : String) : Except Exn String :=
  (entry.get name).elim (.error Exn.keyError) fun x => x.pyStr.elim (.error Exn.valueError) .ok

/-- `text.replace("Z", "+00:00")` -/
def zuluOffset (text : String) : String :=
  String.ofList (text.toList.flatMap fun c => if c = 'Z' then "+00:00".toList else [c])

/-- The `expires_at` of the entry, if it has one, and the time that it denotes, if it can be read. -/
def expiry : Option (Option IsoTime) :=
  match entry.getValue "expires_at" with
  | .null => none
  | expiresAt => some (expiresAt.pyStr.bind fun text => checker.fromIsoFormat (zuluOffset text))

/-- Whether the key has run out, or its expiry cannot be read. A time without an offset cannot be
compared with that of the clock. -/
def expired : Except Exn Bool :=
  match entry.expiry checker with
  | none => .ok false
  | some none => .ok true
  | some (some .naive) => .error Exn.typeError
  | some (some (.aware t)) => .ok (t ≤ utcNow)

/-- The record that `verify` returns. -/
def record (keyId : String) : Except Exn ApiKeyRecord := do
  let tenantId ← entry.text "tenant_id"
  let userId ← entry.text "user_id"
  let rbacRole ← entry.text "rbac_role"
  return ⟨keyId, tenantId, userId, rbacRole⟩

/-- What a record is made of is there, and can be written. -/
def Complete : Prop :=
  ∀ name ∈ ["tenant_id", "user_id", "rbac_role"], ∃ x, entry.get name = some x ∧ x.pyStr.isSome

/-- Nothing stands in the way of a verdict on the key. -/
def Checkable (plaintext : String) : Prop :=
  (entry.getValue "revoked").truthy = true ∨
    entry.expiry checker ≠ some (some .naive) ∧
      (entry.expired checker utcNow = .ok true ∨ ∀ hash, entry.get "hash" = some (.str hash) →
        (∀ name, checker.verifyHash hash plaintext ≠ .raised name) ∧
          (checker.verifyHash hash plaintext = .verified → entry.Complete))

variable {checker utcNow entry}

theorem succeeds_text {name : String} :
    Succeeds (entry.text name) ↔ ∃ x, entry.get name = some x ∧ x.pyStr.isSome := by
  unfold text
  cases hget : entry.get name with
  | none => simp [not_succeeds_error]
  | some x => cases hx : x.pyStr <;> simp [hx, succeeds_ok, not_succeeds_error]

theorem succeeds_record {keyId : String} : Succeeds (entry.record keyId) ↔ entry.Complete := by
  unfold record Complete
  simp only [succeeds_bind, List.forall_mem_cons, ← succeeds_text]
  constructor
  · rintro ⟨tenantId, htenant, userId, huser, rbacRole, hrole, -⟩
    exact ⟨⟨tenantId, htenant⟩, ⟨userId, huser⟩, ⟨rbacRole, hrole⟩, by simp⟩
  · rintro ⟨⟨tenantId, htenant⟩, ⟨userId, huser⟩, ⟨rbacRole, hrole⟩, -⟩
    exact ⟨tenantId, htenant, userId, huser, rbacRole, hrole, succeeds_ok _⟩

theorem succeeds_expired (utcNow : ℚ) :
    Succeeds (entry.expired checker utcNow) ↔ entry.expiry checker ≠ some (some .naive) := by
  unfold expired
  rcases entry.expiry checker with - | - | - | t <;> simp [succeeds_ok, not_succeeds_error]

end ApiKeyEntry

/-! ## The store -/

/-- `YamlApiKeyStore`: each record is filed under its own `key_id` and has an argon2id hash. -/
structure YamlApiKeyStore where
  records : Dict String ApiKeyEntry
  keyed : ∀ keyId entry, records.get keyId = some entry → entry.get "key_id" = some (.str keyId)
  hashed : ∀ keyId entry, records.get keyId = some entry →
    ∃ hash, entry.get "hash" = some (.str hash) ∧ Text.startsWith hash "$argon2id$" = true

namespace YamlApiKeyStore

def empty : YamlApiKeyStore where
  records := []
  keyed := by simp
  hashed := by simp

/-- `seen[key_id] = entry` -/
def file (seen : YamlApiKeyStore) (keyId hash : String) (entry : ApiKeyEntry)
    (hkey : entry.get "key_id" = some (.str keyId)) (hhash : entry.get "hash" = some (.str hash))
    (hargon : Text.startsWith hash "$argon2id$" = true) : YamlApiKeyStore where
  records := seen.records.set keyId entry
  keyed id e hget := by
    rw [Dict.get_set] at hget
    split at hget
    · rename_i hid
      obtain rfl := Option.some.inj hget
      rw [hid, hkey]
    · exact seen.keyed id e hget
  hashed id e hget := by
    rw [Dict.get_set] at hget
    split at hget
    · obtain rfl := Option.some.inj hget
      exact ⟨hash, hhash, hargon⟩
    · exact seen.hashed id e hget

/-- One turn of the loop of `__init__`; `none` is an entry that is no mapping. -/
def addEntry (seen : YamlApiKeyStore) : Option ApiKeyEntry → Except Exn YamlApiKeyStore
  | none => .error Exn.valueError
  | some entry =>
    match hkey : entry.get "key_id", hhash : entry.get "hash" with
    | some (.str keyId), some (.str hash) =>
      if seen.records.has keyId then .error Exn.valueError
      else if hargon : Text.startsWith hash "$argon2id$" = true then
        .ok (seen.file keyId hash entry hkey hhash hargon)
      else .error Exn.valueError
    | _, _ => .error Exn.valueError

/-- `YamlApiKeyStore(path)`, of the entries of `api_keys`; `none` if that is no list. -/
def load (entries : Option (List (Option ApiKeyEntry))) : Except Exn YamlApiKeyStore :=
  entries.elim (.error Exn.valueError) (·.foldlM addEntry empty)

variable (store : YamlApiKeyStore) (checker : KeyChecker) (utcNow : ℚ)

/-- `verify(key_id=…, plaintext=…)` -/
def verify (keyId plaintext : String) : Except Exn (Option ApiKeyRecord) :=
  match store.records.get keyId with
  | none => .ok none
  | some entry =>
    if (entry.getValue "revoked").truthy then .ok none
    else do
      let expired ← entry.expired checker utcNow
      if expired then .ok none
      else
        let hash ← entry.text "hash"
        match checker.verifyHash hash plaintext with
        | .rejected => .ok none
        | .raised name => .error (.exception name)
        | .verified => some <$> entry.record keyId

variable {store checker utcNow}

theorem text_hash {keyId : String} {entry : ApiKeyEntry} (h : store.records.get keyId = some entry) :
    ∃ hash, entry.get "hash" = some (.str hash) ∧ entry.text "hash" = .ok hash := by
  obtain ⟨hash, hhash, -⟩ := store.hashed keyId entry h
  refine ⟨hash, hhash, ?_⟩
  unfold ApiKeyEntry.text
  rw [hhash]
  rfl

/-- **The store comes to a verdict** on a key exactly if it does not have it, or nothing in its entry
stands in the way. -/
theorem succeeds_verify {keyId plaintext : String} :
    Succeeds (store.verify checker utcNow keyId plaintext) ↔
      ∀ entry, store.records.get keyId = some entry → entry.Checkable checker utcNow plaintext := by
  unfold verify
  cases hget : store.records.get keyId with
  | none => simp [succeeds_ok]
  | some entry =>
    obtain ⟨hash, hhash, htext⟩ := text_hash hget
    simp only [Option.some.injEq, forall_eq']
    unfold ApiKeyEntry.Checkable
    split
    · rename_i hrevoked
      exact iff_of_true (succeeds_ok _) (.inl hrevoked)
    · rename_i hrevoked
      rw [or_iff_right hrevoked, ← ApiKeyEntry.succeeds_expired utcNow]
      cases hexpired : entry.expired checker utcNow with
      | error x => simp [bind, Except.bind, not_succeeds_error]
      | ok expired =>
        cases expired with
        | true => simp [bind, Except.bind, succeeds_ok]
        | false =>
          simp only [htext, hhash, bind, Except.bind, Bool.false_eq_true, if_false, succeeds_ok,
            true_and, Except.ok.injEq, false_or, Option.some.injEq, YamlValue.str.injEq, forall_eq']
          cases checker.verifyHash hash plaintext with
          | rejected => simp [succeeds_ok]
          | raised name => simp [not_succeeds_error]
          | verified => simp [succeeds_map, ApiKeyEntry.succeeds_record]

theorem noAuthError_text (entry : ApiKeyEntry) (name : String) : NoAuthError (entry.text name) := by
  unfold ApiKeyEntry.text
  cases entry.get name with
  | none => exact raises_error rfl
  | some x =>
    show NoAuthError (x.pyStr.elim (.error Exn.valueError) .ok)
    cases x.pyStr with
    | none => exact raises_error rfl
    | some text => exact raises_ok text

theorem noAuthError_verify (keyId plaintext : String) :
    NoAuthError (store.verify checker utcNow keyId plaintext) := by
  unfold verify
  split
  · exact raises_ok none
  · rename_i entry hget
    split
    · exact raises_ok none
    · apply Raises.bind
      · unfold ApiKeyEntry.expired
        split
        · exact raises_ok _
        · exact raises_ok _
        · exact raises_error rfl
        · exact raises_ok _
      · intro expired
        split
        · exact raises_ok none
        · apply (noAuthError_text entry "hash").bind
          intro hash
          split
          · exact raises_ok none
          · exact raises_error rfl
          · apply Raises.map
            apply (noAuthError_text entry "tenant_id").bind
            intro tenantId
            apply (noAuthError_text entry "user_id").bind
            intro userId
            apply (noAuthError_text entry "rbac_role").bind
            intro rbacRole
            exact raises_ok _

end YamlApiKeyStore

/-! ## The factory -/

/-- `token.rpartition(".")`, without the separator, of a token that has one. -/
def rpartition (token : String) : String × String :=
  let parts := Text.split '.' token
  (Text.join '.' parts.dropLast, parts.getLastD "")

/-- Whether the token looks like an API key. -/
def isApiKey (token : String) : Bool := Text.startsWith token "wzk_" && Text.contains token "."

/-- `ApiKeySessionFactory(store=…)` -/
structure ApiKeySessionFactory where
  store : YamlApiKeyStore

/-- `ApiKeySessionFactory.build(ctx)` -/
def ApiKeySessionFactory.build (f : ApiKeySessionFactory) (checker : KeyChecker) (utcNow : ℚ)
    (ctx : RequestContext) : Except Exn Session := do
  let token ← TokenFactory.extractBearer ctx
  if !isApiKey token then
    .error (.auth (.invalidToken "malformed api key"))
  else
    let (keyId, plaintext) := rpartition token
    let record ← f.store.verify checker utcNow keyId plaintext
    match record with
    | none => .error (.auth (.invalidToken "key verification failed"))
    | some record => .ok {
        userId := record.userId
        tenantId := record.tenantId
        rbacRole := record.rbacRole
        authMethod := .apiKey }

/-- **A build from an API key fails with an `AuthError`, if at all**, exactly if the store comes to a
verdict on the key. -/
theorem ApiKeySessionFactory.authErrorOnly_build {f : ApiKeySessionFactory} {checker : KeyChecker}
    {utcNow : ℚ} {ctx : RequestContext} {token : String}
    (htoken : TokenFactory.extractBearer ctx = .ok token) (hkey : isApiKey token = true) :
    AuthErrorOnly (f.build checker utcNow ctx) ↔
      ∀ entry, f.store.records.get (rpartition token).1 = some entry →
        entry.Checkable checker utcNow (rpartition token).2 := by
  rw [← YamlApiKeyStore.succeeds_verify,
    ← (YamlApiKeyStore.noAuthError_verify _ _).authErrorOnly_iff]
  unfold build
  rw [htoken]
  show AuthErrorOnly (if !isApiKey token then _ else _) ↔ _
  rw [hkey]
  simp only [Bool.not_true, Bool.false_eq_true, if_false, raises_bind]
  refine and_iff_left ?_
  rintro (- | record) -
  · exact raises_error rfl
  · exact raises_ok _

end WazuhMcp
