import Mathlib.Data.Set.Disjoint
import Mathlib.Order.CompletePartialOrder
import WazuhMcp.Foundations.Text
import WazuhMcp.RateLimit.TokenBucket

/-!
# The Redis keys of the buckets

A bucket's key joins the deployment's prefix, the tier, the tenant and, for a session, the session id
with colons. A tenant id contains no colon, so within one deployment a key says which bucket it is
(`bucketKey_inj`). A prefix may contain colons and a session id anything, so the keys of two
deployments can meet: exactly when one prefix goes on from the other through `:session`
(`keysIsolated_iff`).
-/

namespace WazuhMcp.RateLimit

/-! ## Prefixes and tenant ids -/

/-- `[a-zA-Z0-9:_-]` -/
def isPrefixChar (c : Char) : Bool := c.isAlphanum || c ∈ [':', '_', '-']

/-- `RedisRateLimiterConfig.key_prefix` -/
structure KeyPrefix where
  text : String
  nonempty : text.toList ≠ []
  length_le : text.toList.length ≤ 64
  chars : text.toList.all isPrefixChar

/-- `[a-z0-9]` -/
def isTenantStart (c : Char) : Bool := c.isLower || c.isDigit

/-- `[a-z0-9_-]` -/
def isTenantChar (c : Char) : Bool := isTenantStart c || c ∈ ['_', '-']

/-- A text that `TENANT_ID_PATTERN` matches. -/
structure TenantId where
  text : String
  start : text.toList.head?.any isTenantStart
  chars : text.toList.all isTenantChar
  length_le : text.toList.length ≤ 63
  deriving DecidableEq

theorem TenantId.colon_notMem (t : TenantId) : ':' ∉ t.text.toList := fun h => by
  have := List.all_eq_true.mp t.chars ':' h
  simp [isTenantChar, isTenantStart] at this

/-! ## Keys -/

/-- `_tenant_key(tenant_id)` -/
def tenantKey (keyPrefix tenantId : String) : String := keyPrefix ++ ":tenant:" ++ tenantId

/-- `_session_key(tenant_id, session_id)` -/
def sessionKey (keyPrefix tenantId sessionId : String) : String :=
  keyPrefix ++ ":session:" ++ tenantId ++ ":" ++ sessionId

/-- A bucket: that of a tenant, or that of a session of a tenant. -/
inductive BucketId where
  | tenant (tenantId : TenantId)
  | session (tenantId : TenantId) (sessionId : String)
  deriving DecidableEq

/-- The key of a bucket under a prefix. -/
def bucketKey (keyPrefix : String) : BucketId → String
  | .tenant t => tenantKey keyPrefix t.text
  | .session t s => sessionKey keyPrefix t.text s

/-- The word between the colons of a key that says its tier. -/
def Tier.word : Tier → List Char
  | .tenant => ['t', 'e', 'n', 'a', 'n', 't']
  | .session => ['s', 'e', 's', 's', 'i', 'o', 'n']

theorem Tier.colon_notMem (tier : Tier) : ':' ∉ tier.word := by
  cases tier <;> decide

/-- The part of a key after the prefix and a colon. -/
def BucketId.tail : BucketId → List Char
  | .tenant t => Tier.tenant.word ++ ':' :: t.text.toList
  | .session t s => Tier.session.word ++ ':' :: (t.text.toList ++ ':' :: s.toList)

theorem bucketKey_toList (keyPrefix : String) (b : BucketId) :
    (bucketKey keyPrefix b).toList = keyPrefix.toList ++ ':' :: b.tail := by
  cases b with
  | tenant t =>
    have hword : ":tenant:".toList = ':' :: (Tier.tenant.word ++ [':']) := by decide
    simp only [bucketKey, tenantKey, BucketId.tail, String.toList_append, hword,
      List.append_assoc, List.cons_append, List.nil_append]
  | session t s =>
    have hword : ":session:".toList = ':' :: (Tier.session.word ++ [':']) := by decide
    have hcolon : ":".toList = [':'] := by decide
    simp only [bucketKey, sessionKey, BucketId.tail, String.toList_append, hword, hcolon,
      List.append_assoc, List.cons_append, List.nil_append]

theorem TenantId.text_injective : Function.Injective TenantId.text := by
  rintro ⟨_, _⟩ ⟨_, _⟩ rfl
  rfl

/-- What follows the prefix says which bucket it is. -/
theorem BucketId.tail_injective : Function.Injective BucketId.tail := by
  have htenant {t t' : TenantId} (h : t.text.toList = t'.text.toList) : t = t' :=
    TenantId.text_injective (String.toList_inj.mp h)
  have hword {tier tier' : Tier} {rest rest' : List Char}
      (h : tier.word ++ ':' :: rest = tier'.word ++ ':' :: rest') :
      tier.word = tier'.word ∧ rest = rest' :=
    Text.append_sep_inj tier.colon_notMem tier'.colon_notMem h
  intro b b' h
  cases b with
  | tenant t =>
    cases b' with
    | tenant t' => rw [htenant (hword h).2]
    | session t' s' => exact absurd (hword h).1 (by decide)
  | session t s =>
    cases b' with
    | tenant t' => exact absurd (hword h).1 (by decide)
    | session t' s' =>
      obtain ⟨ht, hs⟩ := Text.append_sep_inj t.colon_notMem t'.colon_notMem (hword h).2
      rw [htenant ht, String.toList_inj.mp hs]

/-- **Within one prefix** a key belongs to one bucket. -/
theorem bucketKey_inj {keyPrefix : String} {b b' : BucketId} :
    bucketKey keyPrefix b = bucketKey keyPrefix b' ↔ b = b' := by
  refine ⟨fun h => ?_, fun h => h ▸ rfl⟩
  have htails : keyPrefix.toList ++ ':' :: b.tail = keyPrefix.toList ++ ':' :: b'.tail := by
    rw [← bucketKey_toList, h, bucketKey_toList]
  exact BucketId.tail_injective (List.cons.inj (List.append_cancel_left htails)).2

/-! ## Prefixes that meet -/

/-- The keys that a limiter with the prefix touches. -/
def keys (p : KeyPrefix) : Set String := Set.range (bucketKey p.text)

/-- The keys of one prefix are not those of the other, and each prefix tells its buckets apart. -/
def KeysIsolated (p p' : KeyPrefix) : Prop :=
  (p.text ≠ p'.text → Disjoint (keys p) (keys p')) ∧
    ∀ b b' : BucketId, bucketKey p.text b = bucketKey p.text b' ↔ b = b'

/-- The second prefix goes on from the first as a session key of the first does: through
`:session`, and then at most through a tenant id, or through a tenant id and more. -/
def GoesOn (p p' : KeyPrefix) : Prop :=
  p'.text = p.text ++ ":session" ∨ ∃ t : TenantId, p'.text = p.text ++ ":session:" ++ t.text ∨
    ∃ more, p'.text = p.text ++ ":session:" ++ t.text ++ ":" ++ more

/-- A key of a tenant has two colons after its prefix, and every key at least that many. -/
theorem count_tail_tenant (t : TenantId) : (BucketId.tenant t).tail.count ':' = 1 := by
  rw [BucketId.tail, List.count_append, List.count_cons_self,
    List.count_eq_zero.mpr (Tier.colon_notMem _), List.count_eq_zero.mpr t.colon_notMem]

theorem one_le_count_tail (b : BucketId) : 1 ≤ b.tail.count ':' := by
  cases b <;> simp only [BucketId.tail, List.count_append, List.count_cons_self] <;> omega

/-- What a longer prefix may have between a shorter one and the rest of a key that both share. -/
theorem goesOn_of_tail_eq {p p' : KeyPrefix} {more : List Char} (hmore : more ≠ [])
    (hp' : p'.text.toList = p.text.toList ++ more) {b b' : BucketId}
    (h : ':' :: b.tail = more ++ ':' :: b'.tail) : GoesOn p p' := by
  obtain ⟨c, rest, rfl⟩ := List.exists_cons_of_ne_nil hmore
  rw [List.cons_append] at h
  obtain ⟨rfl, htail⟩ := List.cons.inj h
  cases b with
  | tenant t =>
    have hcount := congrArg (List.count ':') htail
    rw [count_tail_tenant, List.count_append, List.count_cons_self] at hcount
    have := one_le_count_tail b'
    omega
  | session t s =>
    have hword : ":session".toList = ':' :: Tier.session.word := by decide
    have hword' : ":session:".toList = ':' :: (Tier.session.word ++ [':']) := by decide
    have hcolon : ":".toList = [':'] := by decide
    rw [BucketId.tail] at htail
    by_cases hrest : ':' ∈ rest
    · obtain ⟨cs, rest, rfl, hcs⟩ := List.eq_append_cons_of_mem hrest
      rw [List.append_assoc, List.cons_append] at htail
      obtain ⟨rfl, htail'⟩ := Text.append_sep_inj (Tier.colon_notMem _) hcs htail
      refine .inr ⟨t, ?_⟩
      by_cases hrest : ':' ∈ rest
      · obtain ⟨cs, rest, rfl, hcs⟩ := List.eq_append_cons_of_mem hrest
        rw [List.append_assoc, List.cons_append] at htail'
        obtain ⟨rfl, -⟩ := Text.append_sep_inj t.colon_notMem hcs htail'
        refine .inr ⟨String.ofList rest, String.toList_inj.mp ?_⟩
        simp [hp', hword', hcolon]
      · obtain ⟨rfl, -⟩ := Text.append_sep_inj t.colon_notMem hrest htail'
        refine .inl (String.toList_inj.mp ?_)
        simp [hp', hword']
    · obtain ⟨rfl, -⟩ := Text.append_sep_inj (Tier.colon_notMem _) hrest htail
      refine .inl (String.toList_inj.mp ?_)
      simp [hp', hword]

/-- Two prefixes that differ and share a key: one goes on from the other. -/
theorem goesOn_of_mem_keys {p p' : KeyPrefix} (hne : p.text ≠ p'.text) {k : String}
    (h : k ∈ keys p) (h' : k ∈ keys p') : GoesOn p p' ∨ GoesOn p' p := by
  obtain ⟨b, hb⟩ := h
  obtain ⟨b', hb'⟩ := h'
  have hkey : p.text.toList ++ ':' :: b.tail = p'.text.toList ++ ':' :: b'.tail := by
    rw [← bucketKey_toList, hb, ← hb', bucketKey_toList]
  have hnil {q q' : KeyPrefix} {more : List Char} (hq : q'.text.toList = q.text.toList ++ more)
      (hne : q.text ≠ q'.text) : more ≠ [] := by
    rintro rfl
    exact hne (String.toList_inj.mp (by rw [hq, List.append_nil]))
  rcases List.append_eq_append_iff.mp hkey with ⟨more, hp', htail⟩ | ⟨more, hp, htail⟩
  · exact .inl (goesOn_of_tail_eq (hnil hp' hne) hp' htail)
  · exact .inr (goesOn_of_tail_eq (hnil hp hne.symm) hp htail)

/-- A prefix that goes on from another is longer. -/
theorem GoesOn.ne {p p' : KeyPrefix} (h : GoesOn p p') : p.text ≠ p'.text := by
  intro heq
  have hlen := congrArg (fun s => s.toList.length) heq
  rcases h with hp' | ⟨t, hp' | ⟨more, hp'⟩⟩ <;> rw [hp'] at hlen <;>
    simp [String.toList_append] at hlen

/-- A prefix that goes on from another shares a key with it. -/
theorem GoesOn.exists_mem_keys {p p' : KeyPrefix} (h : GoesOn p p') :
    ∃ k, k ∈ keys p ∧ k ∈ keys p' := by
  -- a tenant of the one deployment, and a session of the tenant `tenant` or `t` of the other
  let a : TenantId := ⟨"a", by decide, by decide, by decide⟩
  rcases h with hp' | ⟨t, hp' | ⟨more, hp'⟩⟩
  · refine ⟨tenantKey p'.text "a", ⟨.session ⟨"tenant", by decide, by decide, by decide⟩ "a", ?_⟩,
      .tenant a, rfl⟩
    rw [bucketKey, sessionKey, tenantKey, hp']
    simp only [String.append_assoc]
    rfl
  · refine ⟨tenantKey p'.text "a", ⟨.session t "tenant:a", ?_⟩, .tenant a, rfl⟩
    rw [bucketKey, sessionKey, tenantKey, hp']
    simp only [String.append_assoc]
    rfl
  · refine ⟨tenantKey p'.text "a", ⟨.session t (more ++ ":tenant:a"), ?_⟩, .tenant a, rfl⟩
    rw [bucketKey, sessionKey, tenantKey, hp']
    simp only [String.append_assoc]
    rfl

/-- **Two deployments' keys are isolated** exactly when neither prefix goes on from the other. -/
theorem keysIsolated_iff (p p' : KeyPrefix) :
    KeysIsolated p p' ↔ ¬ GoesOn p p' ∧ ¬ GoesOn p' p := by
  constructor
  · rintro ⟨hdisj, -⟩
    have hmeet {q q' : KeyPrefix} (h : GoesOn q q') (hd : Disjoint (keys q) (keys q')) : False := by
      obtain ⟨k, hk, hk'⟩ := h.exists_mem_keys
      exact Set.disjoint_left.mp hd hk hk'
    exact ⟨fun h => hmeet h (hdisj h.ne), fun h => hmeet h (hdisj h.ne.symm).symm⟩
  · rintro ⟨h, h'⟩
    refine ⟨fun hne => Set.disjoint_left.mpr fun k hk hk' => ?_, fun b b' => bucketKey_inj⟩
    exact (goesOn_of_mem_keys hne hk hk').elim h h'

/-- The deployments `depA` and `depA:session:acme`: what the second counts of its tenant `eu`, the
first counts of the session `tenant:eu` of its tenant `acme`. -/
theorem not_keysIsolated_of_goesOn : ¬ ∀ p p' : KeyPrefix, KeysIsolated p p' := by
  intro h
  let p : KeyPrefix := ⟨"depA", by decide, by decide, by decide⟩
  let p' : KeyPrefix := ⟨"depA:session:acme", by decide, by decide, by decide⟩
  let acme : TenantId := ⟨"acme", by decide, by decide, by decide⟩
  let eu : TenantId := ⟨"eu", by decide, by decide, by decide⟩
  have hne : p.text ≠ p'.text := by decide
  have hkey : bucketKey p.text (.session acme "tenant:eu") = bucketKey p'.text (.tenant eu) := by
    decide
  exact Set.disjoint_left.mp ((h p p').1 hne) ⟨_, hkey⟩ ⟨_, rfl⟩

end WazuhMcp.RateLimit
