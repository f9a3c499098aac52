import Mathlib.Algebra.Order.Ring.Rat
import Mathlib.Tactic.Linarith
import WazuhMcp.Foundations.Binary64
import WazuhMcp.Foundations.Runs
import WazuhMcp.Wazuh.RequestPaths

/-!
# The token cache

`ServerApiClient` keeps the token that was minted last, with the times at which it was minted and at
which it runs out. `_ensure_jwt` and `_refresh_jwt_force` hold a lock while a token is being minted; the
runs here are all interleavings of such calls, with whatever the Server API answers and whatever the
clock shows.

* `Inv.exec`: what is cached belongs together, and what a call returns is a token that it has minted, or
  one that had used up less than 80% of its lifetime if rounding has not put off its refresh (`NotLate`).
* `parseExpSeconds_positive_iff`: the lifetime that is read off a token is positive, unless the payload
  makes it NaN, which is not less or equal zero either.
* `tokenCache_law`: in the runs in which rounding puts off no refresh, the cache keeps its law, and the
  lifetime of a token its own exactly for tokens that do not make it NaN.

Readings of the clocks are doubles, and what is computed of them is rounded as doubles are. How old a token
is, and how long it lasts, is a number all the same.
-/

namespace WazuhMcp

open Interact

/-! ## Numbers that may be infinite or NaN -/

namespace FloatVal

/-- The double that a number is rounded to. -/
def ofRat (q : ℚ) : FloatVal :=
  if 2 ^ 1024 ≤ Binary64.fl q then .inf
  else if Binary64.fl q ≤ -2 ^ 1024 then .negInf
  else .fin (Binary64.fl q)

/-- `x + y` -/
def add : FloatVal → FloatVal → FloatVal
  | .fin a, .fin b => ofRat (a + b)
  | .nan, _ | _, .nan | .inf, .negInf | .negInf, .inf => .nan
  | .inf, _ | _, .inf => .inf
  | .negInf, _ | _, .negInf => .negInf

/-- `x - y` -/
def sub : FloatVal → FloatVal → FloatVal
  | .fin a, .fin b => ofRat (a - b)
  | .nan, _ | _, .nan | .inf, .inf | .negInf, .negInf => .nan
  | .inf, _ | _, .negInf => .inf
  | .negInf, _ | _, .inf => .negInf

/-- `x * q`, for a positive `q` -/
def scale (q : ℚ) : FloatVal → FloatVal
  | .fin a => ofRat (a * q)
  | x => x

/-- `x <= 0` -/
def nonpos : FloatVal → Bool
  | .fin q => q ≤ 0
  | .negInf => true
  | .inf | .nan => false

/-- `x < y` -/
def lt : FloatVal → FloatVal → Bool
  | .nan, _ | _, .nan | .inf, _ | _, .negInf => false
  | .negInf, _ | _, .inf => true
  | .fin a, .fin b => a < b

/-- `0 < x` -/
def Positive (x : FloatVal) : Prop := (fin 0).lt x = true

/-- What `q` is of the number, not rounded. -/
def part (q : ℚ) : FloatVal → FloatVal
  | .fin a => .fin (a * q)
  | x => x

theorem ofRat_ne_nan (q : ℚ) : ofRat q ≠ .nan := by
  rw [ofRat]
  split_ifs <;> simp

theorem positive_iff {x : FloatVal} : x.Positive ↔ x.nonpos = false ∧ x ≠ .nan := by
  cases x <;> simp [Positive, lt, nonpos]

theorem sub_eq_nan_iff {x y : FloatVal} :
    x.sub y = .nan ↔ x = .nan ∨ y = .nan ∨ x = y ∧ (x = .inf ∨ x = .negInf) := by
  cases x <;> cases y <;> simp [sub, ofRat_ne_nan]

theorem lt_of_not_lt_of_lt {x y z : FloatVal} (hx : x ≠ .nan) (hxy : y.lt x = false) (hyz : y.lt z = true) :
    x.lt z = true := by
  cases x <;> cases y <;> cases z <;> simp_all [lt]
  exact hxy.trans_lt hyz

theorem lt_of_lt_of_not_lt {x y z : FloatVal} (hz : z ≠ .nan) (hxy : x.lt y = true) (hyz : z.lt y = false) :
    x.lt z = true := by
  cases x <;> cases y <;> cases z <;> simp_all [lt]
  exact hxy.trans_le hyz

end FloatVal

/-- `float(i)` of an integer: beyond the doubles it raises an `OverflowError`. -/
def floatOfInt (i : ℤ) : Option FloatVal :=
  match FloatVal.ofRat i with
  | .fin q => some (.fin q)
  | _ => none

/-! ## The lifetime of a token -/

/-- What the client does not do itself. -/
structure TokenReader where
  /-- `json.loads(base64.urlsafe_b64decode(segment + pad))`, if it does not raise -/
  loadSegment : String → Option Json
  /-- `float(text)`, if it does not raise -/
  floatOfText : String → Option FloatVal

namespace ServerApiClient

variable (reader : TokenReader)

/-- `float(x)`, if it does not raise. -/
def floatOf : Json → Option FloatVal
  | .int i => floatOfInt i
  | .bool b => floatOfInt (if b then 1 else 0)
  | .float f => some f.val
  | .str s => reader.floatOfText s
  | _ => none

/-- The second part of `token.split(".", 2)`, if there are three. -/
def payloadSegment (token : String) : Option String :=
  match Text.split '.' token with
  | _ :: payload :: _ :: _ => some payload
  | _ => none

/-- The payload of a token, if it can be decoded and is an object. -/
def payloadOf (token : String) : Option JsonObject := do
  match ← reader.loadSegment (← payloadSegment token) with
  | .obj payload => some payload
  | _ => none

/-- `float(exp) - float(iat)`, if `exp` is a number and nothing raises; `iat` is by default the time. -/
def nominalLifetime (wall : FloatVal) (token : String) : Option FloatVal := do
  let payload ← payloadOf reader token
  let exp := payload.get "exp"
  let _ ← exp.number
  let exp ← floatOf reader exp
  let iat ← floatOf reader (payload.getD "iat" (.float ⟨wall, ""⟩))
  return exp.sub iat

/-- `_parse_exp_seconds(token)`, at a time. -/
def parseExpSeconds (wall : FloatVal) (token : String) : FloatVal :=
  match nominalLifetime reader wall token with
  | none => .fin 900
  | some lifetime => if lifetime.nonpos then .fin 900 else lifetime

/-- `REFRESH_AT_FRACTION` -/
def refreshAtFraction : ℚ := Binary64.fl (4 / 5)

/-- `lifetime * REFRESH_AT_FRACTION` -/
def refreshAge (issuedAt : ℚ) (exp : FloatVal) : FloatVal :=
  let lifetime := exp.sub (.fin issuedAt)
  lifetime.scale refreshAtFraction

/-- The payload of the token makes its lifetime NaN: `exp` or `iat` is NaN, or they are infinite and the
same. -/
def NanLifetime (wall : FloatVal) (token : String) : Prop :=
  ∃ payload exp iat, payloadOf reader token = some payload ∧ (payload.get "exp").number.isSome ∧
    floatOf reader (payload.get "exp") = some exp ∧
    floatOf reader (payload.getD "iat" (.float ⟨wall, ""⟩)) = some iat ∧
    (exp = .nan ∨ iat = .nan ∨ exp = iat ∧ (exp = .inf ∨ exp = .negInf))

variable {reader} {wall : FloatVal} {token : String}

theorem nanLifetime_iff :
    NanLifetime reader wall token ↔ nominalLifetime reader wall token = some .nan := by
  unfold NanLifetime nominalLifetime
  simp only [Option.bind_eq_bind, Option.bind_eq_some_iff, Option.isSome_iff_exists]
  constructor
  · rintro ⟨payload, exp, iat, hpayload, ⟨n, hn⟩, hexp, hiat, hnan⟩
    exact ⟨payload, hpayload, n, hn, exp, hexp, iat, hiat,
      congrArg some (FloatVal.sub_eq_nan_iff.mpr hnan)⟩
  · rintro ⟨payload, hpayload, n, hn, exp, hexp, iat, hiat, hsub⟩
    exact ⟨payload, exp, iat, hpayload, ⟨n, hn⟩, hexp, hiat,
      FloatVal.sub_eq_nan_iff.mp (Option.some.inj hsub)⟩

/-- **The lifetime is positive**, unless it is NaN. -/
theorem parseExpSeconds_positive_iff :
    (parseExpSeconds reader wall token).Positive ↔ ¬ NanLifetime reader wall token := by
  have hfallback : (FloatVal.fin 900).Positive := by
    show decide ((0 : ℚ) < 900) = true
    norm_num
  rw [nanLifetime_iff, parseExpSeconds]
  cases hlifetime : nominalLifetime reader wall token with
  | none => simp [hfallback]
  | some lifetime =>
    rw [Option.some.injEq]
    by_cases hnonpos : lifetime.nonpos = true
    · show FloatVal.Positive (if lifetime.nonpos = true then _ else _) ↔ _
      rw [if_pos hnonpos]
      refine iff_of_true hfallback ?_
      rintro rfl
      cases hnonpos
    · show FloatVal.Positive (if lifetime.nonpos = true then _ else _) ↔ _
      rw [if_neg hnonpos, FloatVal.positive_iff]
      exact and_iff_right (eq_false_of_ne_true hnonpos)

end ServerApiClient

/-! ## Calls -/

open ServerApiClient

/-- Where a call is: waiting for the lock, waiting for the answer to its mint while it holds the lock, or
ended; `now` is the time at which it has looked at the cache. -/
inductive JwtPoint where
  | waiting
  | minting
  | returned (token : String) (now : ℚ)
  | raised (x : Exn)
  deriving DecidableEq

/-- A call of `_ensure_jwt()`, or of `_refresh_jwt_force()`. -/
structure JwtCall where
  force : Bool
  point : JwtPoint
  deriving DecidableEq

/-- A token that was minted: when, with which lifetime, and by which call. -/
structure MintRecord where
  token : String
  mintedAt : ℚ
  lifetime : FloatVal
  caller : ℕ

/-- The token's `_token_exp`. -/
def MintRecord.exp (m : MintRecord) : FloatVal := FloatVal.add (.fin m.mintedAt) m.lifetime

/-- At a time, the token has used up less than 80% of its lifetime. -/
def MintRecord.Fresh (m : MintRecord) (now : ℚ) : Prop :=
  (FloatVal.fin (now - m.mintedAt)).lt (m.lifetime.part (4 / 5)) = true

instance (m : MintRecord) (now : ℚ) : Decidable (m.Fresh now) := inferInstanceAs (Decidable (_ = _))

/-- At a time, rounding does not put off the token's refresh: the age that it is to be refreshed at is no more
than 80% of its lifetime, and its age at that time is not rounded down. -/
def MintRecord.NotLate (m : MintRecord) (now : ℚ) : Prop :=
  (m.lifetime.part (4 / 5)).lt (refreshAge m.mintedAt m.exp) = false ∧
    (FloatVal.ofRat (now - m.mintedAt)).lt (.fin (now - m.mintedAt)) = false

instance (m : MintRecord) (now : ℚ) : Decidable (m.NotLate now) := inferInstanceAs (Decidable (_ ∧ _))

/-- The client, as far as its token goes, with the calls and the mints so far. -/
structure TokenRun where
  /-- `_token` -/
  token : Option String := none
  /-- `_token_issued_at` -/
  issuedAt : Option ℚ := none
  /-- `_token_exp` -/
  exp : Option FloatVal := none
  /-- the call that holds the lock, if one does -/
  holder : Option ℕ := none
  calls : List JwtCall := []
  mints : List MintRecord := []

/-- A step of a run. -/
inductive JwtAction where
  /-- a call, up to the lock -/
  | call (force : Bool)
  /-- call `i` gets the lock, at a time -/
  | enter (i : ℕ) (now : ℚ)
  /-- the mint of call `i` is answered; the times are those of the two clocks -/
  | answer (i : ℕ) (ans : Except ForeignExn UpResponse) (now : ℚ) (wall : FloatVal)
  /-- call `i` is cancelled -/
  | cancel (i : ℕ)

namespace TokenRun

variable (reader : TokenReader) (s : TokenRun)

/-- The cached token, if `_ensure_jwt` returns it. -/
def cached (now : ℚ) : Option String :=
  match s.token, s.issuedAt, s.exp with
  | some token, some issuedAt, some exp =>
    if token ≠ "" ∧ issuedAt ≠ 0 ∧ exp ≠ .fin 0 then
      let consumed := FloatVal.ofRat (now - issuedAt)
      if consumed.lt (refreshAge issuedAt exp) then some token else none
    else none
  | _, _, _ => none

/-- Call `i` is now there. -/
def moveTo (i : ℕ) (c : JwtCall) (point : JwtPoint) : TokenRun :=
  { s with calls := s.calls.set i { c with point := point } }

/-- Call `i` has the lock: it returns the cached token, or goes on to mint. -/
def enter (i : ℕ) (c : JwtCall) (now : ℚ) : TokenRun :=
  match if c.force then none else s.cached now with
  | some token => s.moveTo i c (.returned token now)
  | none => { s.moveTo i c .minting with holder := some i }

/-- The end of `_mint_locked()`: the token and its times are stored, and the lock is released. -/
def store (i : ℕ) (c : JwtCall) (token : String) (now : ℚ) (wall : FloatVal) : TokenRun :=
  let lifetime := parseExpSeconds reader wall token
  { s.moveTo i c (.returned token now) with
    token := some token
    issuedAt := some now
    exp := some (FloatVal.add (.fin now) lifetime)
    holder := none
    mints := s.mints ++ [⟨token, now, lifetime, i⟩] }

/-- What the answer to the mint of call `i` leads to. -/
def answer (i : ℕ) (c : JwtCall) (ans : Except ForeignExn UpResponse) (now : ℚ) (wall : FloatVal) :
    TokenRun :=
  match mintResult ans with
  | .ok token => s.store reader i c token now wall
  | .error x => { s.moveTo i c (.raised x) with holder := none }

/-- One step of a run; what is not possible does nothing. -/
def step : JwtAction → TokenRun
  | .call force => { s with calls := s.calls ++ [⟨force, .waiting⟩] }
  | .enter i now =>
    match s.calls[i]?, s.holder with
    | some ⟨force, .waiting⟩, none => s.enter i ⟨force, .waiting⟩ now
    | _, _ => s
  | .answer i ans now wall =>
    match s.calls[i]? with
    | some ⟨force, .minting⟩ => s.answer reader i ⟨force, .minting⟩ ans now wall
    | _ => s
  | .cancel i =>
    match s.calls[i]? with
    | some ⟨force, .waiting⟩ => s.moveTo i ⟨force, .waiting⟩ (.raised Exn.cancelled)
    | some ⟨force, .minting⟩ =>
      { s.moveTo i ⟨force, .minting⟩ (.raised Exn.cancelled) with holder := none }
    | _ => s

/-! ## What holds of every run -/

/-- What is in the cache. -/
def cache : Option String × Option ℚ × Option FloatVal := (s.token, s.issuedAt, s.exp)

/-- The cache has what a mint has left there. -/
def Filled (m : MintRecord) : Prop :=
  s.cache = (some m.token, some m.mintedAt, some m.exp)

/-- The token was minted by the call, or it had used up less than 80% of its lifetime when the call looked
at it. -/
def Granted (i : ℕ) (c : JwtCall) (token : String) (now : ℚ) : Prop :=
  ∃ m ∈ s.mints, m.token = token ∧ (m.caller = i ∨
    c.force = false ∧ m.Fresh now)

/-- What every step keeps. -/
structure Inv : Prop where
  cache : s.cache = (none, none, none) ∨ ∃ m ∈ s.mints, s.Filled m
  returned : ∀ (i : ℕ) (c : JwtCall), s.calls[i]? = some c →
    ∀ token now, c.point = .returned token now → s.Granted i c token now
  minting : ∀ (i : ℕ) (c : JwtCall), s.calls[i]? = some c → (c.point = .minting ↔ s.holder = some i)
  holder : ∀ i, s.holder = some i → i < s.calls.length
  minted : ∀ m ∈ s.mints, ∃ ans wall,
    mintResult ans = .ok m.token ∧ m.lifetime = parseExpSeconds reader wall m.token

/-- **What a step does.** -/
inductive Effect (s : TokenRun) : JwtAction → TokenRun → Prop
  | idle {a : JwtAction} : Effect s a s
  | called {force : Bool} : Effect s (.call force) { s with calls := s.calls ++ [⟨force, .waiting⟩] }
  /-- the cached token is returned -/
  | hit {i : ℕ} {now : ℚ} {c : JwtCall} {token : String} (hcall : s.calls[i]? = some c)
      (hpoint : c.point = .waiting) (hforce : c.force = false) (htoken : s.cached now = some token) :
      Effect s (.enter i now) (s.moveTo i c (.returned token now))
  /-- the lock is taken -/
  | locked {i : ℕ} {now : ℚ} {c : JwtCall} (hcall : s.calls[i]? = some c) (hpoint : c.point = .waiting)
      (hfree : s.holder = none) :
      Effect s (.enter i now) { s.moveTo i c .minting with holder := some i }
  /-- a token is minted and stored -/
  | stored {i : ℕ} {ans : Except ForeignExn UpResponse} {now : ℚ} {wall : FloatVal} {c : JwtCall}
      {token : String} (hcall : s.calls[i]? = some c) (hpoint : c.point = .minting)
      (htoken : mintResult ans = .ok token) :
      Effect s (.answer i ans now wall) (s.store reader i c token now wall)
  /-- the lock is released without a token -/
  | dropped {a : JwtAction} {i : ℕ} {c : JwtCall} {x : Exn} (hcall : s.calls[i]? = some c)
      (hpoint : c.point = .minting) : Effect s a { s.moveTo i c (.raised x) with holder := none }
  | cancelled {i : ℕ} {c : JwtCall} (hcall : s.calls[i]? = some c) (hpoint : c.point = .waiting) :
      Effect s (.cancel i) (s.moveTo i c (.raised Exn.cancelled))

variable {reader s}

theorem step_effect (a : JwtAction) : Effect reader s a (s.step reader a) := by
  cases a with
  | call force => exact .called
  | enter i now =>
    rw [step]
    split
    · rename_i force hcall hfree
      unfold TokenRun.enter
      cases force with
      | true => exact .locked hcall rfl hfree
      | false =>
        cases htoken : s.cached now with
        | none => exact .locked hcall rfl hfree
        | some token => exact .hit hcall rfl rfl htoken
    · exact .idle
  | answer i ans now wall =>
    rw [step]
    split
    · rename_i force hcall
      unfold TokenRun.answer
      cases hans : mintResult ans with
      | ok token => exact .stored hcall rfl hans
      | error x => exact .dropped hcall rfl
    · exact .idle
  | cancel i =>
    rw [step]
    split
    · rename_i force hcall
      exact .cancelled hcall rfl
    · rename_i force hcall
      exact .dropped hcall rfl
    · exact .idle

/-- What the cache returns is younger than the age at which it is refreshed. -/
theorem cached_eq_some {now : ℚ} {token : String} {m : MintRecord} (hfilled : s.Filled m)
    (h : s.cached now = some token) :
    token = m.token ∧ (FloatVal.ofRat (now - m.mintedAt)).lt (refreshAge m.mintedAt m.exp) = true := by
  obtain ⟨htoken, hissued, hexp⟩ : s.token = some m.token ∧ s.issuedAt = some m.mintedAt ∧
      s.exp = some m.exp := by
    simpa [Filled, cache] using hfilled
  unfold cached at h
  rw [htoken, hissued, hexp] at h
  dsimp only at h
  split at h
  · split at h
    · rename_i hfresh
      exact ⟨(Option.some.inj h).symm, hfresh⟩
    · cases h
  · cases h

/-- A token whose lifetime is NaN is never younger. -/
theorem refreshAge_nan {m : MintRecord} (h : m.lifetime = .nan) : refreshAge m.mintedAt m.exp = .nan := by
  rw [refreshAge, MintRecord.exp, h]
  rfl

/-- **What the cache returns had used up less than 80% of its lifetime**, if rounding has not put off its
refresh. -/
theorem fresh_of_cached {now : ℚ} {token : String} {m : MintRecord} (hfilled : s.Filled m)
    (h : s.cached now = some token) (hnotLate : m.NotLate now) : token = m.token ∧ m.Fresh now := by
  obtain ⟨htoken, hyounger⟩ := cached_eq_some hfilled h
  refine ⟨htoken, ?_⟩
  have hpart : m.lifetime.part (4 / 5) ≠ .nan := by
    intro hnan
    have hlifetime : m.lifetime = .nan := by
      cases hm : m.lifetime <;> simp_all [FloatVal.part]
    rw [refreshAge_nan hlifetime] at hyounger
    cases hm : FloatVal.ofRat (now - m.mintedAt) <;> simp [hm, FloatVal.lt] at hyounger
  obtain ⟨hrefresh, hage⟩ := hnotLate
  have hless : (FloatVal.fin (now - m.mintedAt)).lt (refreshAge m.mintedAt m.exp) = true :=
    FloatVal.lt_of_not_lt_of_lt (by simp) hage hyounger
  exact FloatVal.lt_of_lt_of_not_lt hpart hless hrefresh

/-- Rounding does not put off the refresh of the cached token when a call looks at it. -/
def NotLate (s : TokenRun) : JwtAction → Prop
  | .enter _ now => ∀ m ∈ s.mints, s.Filled m → m.NotLate now
  | _ => True

instance (s : TokenRun) (m : MintRecord) : Decidable (s.Filled m) := inferInstanceAs (Decidable (_ = _))

instance (s : TokenRun) : (a : JwtAction) → Decidable (s.NotLate a)
  | .enter _ now => inferInstanceAs (Decidable (∀ m ∈ s.mints, s.Filled m → m.NotLate now))
  | .call _ | .answer .. | .cancel _ => .isTrue trivial

theorem cached_of_empty (h : s.cache = (none, none, none)) (now : ℚ) : s.cached now = none := by
  obtain ⟨htoken, -, -⟩ : s.token = none ∧ s.issuedAt = none ∧ s.exp = none := by
    simpa [cache] using h
  unfold cached
  rw [htoken]

/-! ## The invariant -/

theorem Granted.mono {s' : TokenRun} {i : ℕ} {c : JwtCall} {token : String} {now : ℚ}
    (h : s.Granted i c token now) (hmints : ∀ m ∈ s.mints, m ∈ s'.mints) : s'.Granted i c token now := by
  obtain ⟨m, hm, hgranted⟩ := h
  exact ⟨m, hmints m hm, hgranted⟩

theorem Inv.not_holder_of_waiting (h : s.Inv reader) {i : ℕ} {c : JwtCall} (hcall : s.calls[i]? = some c)
    (hpoint : c.point = .waiting) : s.holder ≠ some i := by
  intro hheld
  rw [(h.minting i c hcall).mpr hheld] at hpoint
  cases hpoint

/-- What one call's move keeps, with what it does to the rest of the client. -/
theorem Inv.of_set {s' : TokenRun} (h : s.Inv reader) {i : ℕ} {c : JwtCall} {point : JwtPoint}
    (hcall : s.calls[i]? = some c) (hcalls : s'.calls = s.calls.set i { c with point := point })
    (hmints : ∀ m ∈ s.mints, m ∈ s'.mints)
    (hcache : s'.cache = (none, none, none) ∨ ∃ m ∈ s'.mints, s'.Filled m)
    (hreturned : ∀ token now, point = .returned token now → s'.Granted i { c with point := point } token now)
    (hpoint : point = .minting ↔ s'.holder = some i)
    (hother : ∀ j, i ≠ j → (s'.holder = some j ↔ s.holder = some j))
    (hminted : ∀ m ∈ s'.mints, ∃ ans wall,
      mintResult ans = .ok m.token ∧ m.lifetime = parseExpSeconds reader wall m.token) :
    s'.Inv reader where
  cache := hcache
  returned j d hd token now hdpoint := by
    rw [hcalls] at hd
    rcases Calls.get_set_cases hd with ⟨rfl, rfl⟩ | ⟨-, hold⟩
    · exact hreturned token now hdpoint
    · exact (h.returned j d hold token now hdpoint).mono hmints
  minting j d hd := by
    rw [hcalls] at hd
    rcases Calls.get_set_cases hd with ⟨rfl, rfl⟩ | ⟨hij, hold⟩
    · exact hpoint
    · rw [hother j hij]
      exact h.minting j d hold
  holder j hj := by
    rw [hcalls, List.length_set]
    by_cases hij : i = j
    · rw [← hij]
      exact (List.getElem?_eq_some_iff.mp hcall).1
    · exact h.holder j ((hother j hij).mp hj)
  minted := hminted

/-- A call that begins holds no lock and has no token. -/
theorem Inv.addCall (h : s.Inv reader) (force : Bool) :
    ({ s with calls := s.calls ++ [⟨force, .waiting⟩] } : TokenRun).Inv reader := by
  refine ⟨h.cache, ?_, ?_, ?_, h.minted⟩
  · intro i c hcall token now hpoint
    rcases Calls.get_append_cases hcall with hold | ⟨-, rfl⟩
    · exact h.returned i c hold token now hpoint
    · cases hpoint
  · intro i c hcall
    rcases Calls.get_append_cases hcall with hold | ⟨rfl, rfl⟩
    · exact h.minting i c hold
    · exact iff_of_false (by simp) fun hheld => absurd (h.holder _ hheld) (Nat.lt_irrefl _)
  · intro i hi
    have hlt := h.holder i hi
    simp only [List.length_append]
    omega

/-- Where the holder releases the lock, no other call has held it. -/
theorem released_iff {i j : ℕ} (hheld : s.holder = some i) (hij : i ≠ j) :
    none = some j ↔ s.holder = some j := by
  rw [hheld]
  exact iff_of_false nofun fun hj => hij (Option.some.inj hj)

/-- **Every step keeps the invariant.** -/
theorem Inv.step (h : s.Inv reader) {a : JwtAction} (hlate : s.NotLate a) : (s.step reader a).Inv reader := by
  have heffect := @step_effect reader s a
  generalize s.step reader a = s' at heffect
  cases heffect with
  | idle => exact h
  | called => exact h.addCall _
  | @hit i now c token hcall hpoint hforce htoken =>
    have hheld := h.not_holder_of_waiting hcall hpoint
    refine h.of_set hcall rfl (fun _ hm => hm) h.cache ?_ (iff_of_false (by simp) hheld)
      (fun _ _ => Iff.rfl) h.minted
    rintro _ _ ⟨⟩
    rcases h.cache with hempty | ⟨m, hm, hfilled⟩
    · rw [cached_of_empty hempty] at htoken
      cases htoken
    · obtain ⟨rfl, hfresh⟩ := fresh_of_cached hfilled htoken (hlate m hm hfilled)
      exact ⟨m, hm, rfl, .inr ⟨hforce, hfresh⟩⟩
  | @locked i now c hcall hpoint hfree =>
    refine h.of_set hcall rfl (fun _ hm => hm) h.cache ?_ (iff_of_true rfl rfl) ?_ h.minted
    · rintro _ _ ⟨⟩
    · intro j hij
      rw [hfree]
      exact iff_of_false (fun hj => hij (Option.some.inj hj)) (by simp)
  | @stored i ans now wall c token hcall hpoint htoken =>
    have hheld : s.holder = some i := (h.minting i c hcall).mp hpoint
    have hmem : ⟨token, now, parseExpSeconds reader wall token, i⟩ ∈
        s.mints ++ [⟨token, now, parseExpSeconds reader wall token, i⟩] := by simp
    refine h.of_set hcall rfl (fun _ hm => List.mem_append_left _ hm) (.inr ⟨_, hmem, rfl⟩) ?_
      (iff_of_false (by simp) nofun) (fun _ hij => released_iff hheld hij) ?_
    · rintro _ _ ⟨⟩
      exact ⟨_, hmem, rfl, .inl rfl⟩
    · intro m hm
      rcases List.mem_append.mp hm with hold | hnew
      · exact h.minted m hold
      · obtain rfl := List.mem_singleton.mp hnew
        exact ⟨ans, wall, htoken, rfl⟩
  | @dropped a i c x hcall hpoint =>
    have hheld : s.holder = some i := (h.minting i c hcall).mp hpoint
    refine h.of_set hcall rfl (fun _ hm => hm) h.cache ?_ (iff_of_false (by simp) nofun)
      (fun _ hij => released_iff hheld hij) h.minted
    rintro _ _ ⟨⟩
  | @cancelled i c hcall hpoint =>
    have hheld := h.not_holder_of_waiting hcall hpoint
    refine h.of_set hcall rfl (fun _ hm => hm) h.cache ?_ (iff_of_false (by simp) hheld)
      (fun _ _ => Iff.rfl) h.minted
    rintro _ _ ⟨⟩

theorem inv_new : Inv reader {} := by
  refine ⟨.inl rfl, ?_, ?_, ?_, ?_⟩
  · rintro i c ⟨⟩
  · rintro i c ⟨⟩
  · rintro i ⟨⟩
  · rintro m ⟨⟩

/-- **The invariant holds throughout every run** in which rounding puts off no refresh. -/
theorem Inv.always {acts : List JwtAction} (hlate : Runs.EachStep (TokenRun.step reader) NotLate {} acts) :
    Runs.Always (TokenRun.step reader) (Inv reader) {} acts :=
  Runs.always_of_eachStep inv_new (fun _ _ h ha => h.step ha) hlate

/-- **One mint at a time**: two calls that are minting are one. -/
theorem Inv.exclusive (h : s.Inv reader) {i j : ℕ} {c d : JwtCall} (hc : s.calls[i]? = some c)
    (hd : s.calls[j]? = some d) (hcpoint : c.point = .minting) (hdpoint : d.point = .minting) : i = j := by
  have hi := (h.minting i c hc).mp hcpoint
  rw [(h.minting j d hd).mp hdpoint] at hi
  exact (Option.some.inj hi).symm

/-- Only a mint that succeeds changes the cache. -/
theorem cache_step {a : JwtAction}
    (h : ∀ i ans now wall, a = .answer i ans now wall → ∃ x, mintResult ans = .error x) :
    (s.step reader a).cache = s.cache := by
  have heffect := @step_effect reader s a
  generalize s.step reader a = s' at heffect
  cases heffect with
  | stored hcall hpoint htoken =>
    obtain ⟨x, hx⟩ := h _ _ _ _ rfl
    rw [htoken] at hx
    cases hx
  | _ => rfl

/-! ## The law -/

/-- A token that a call returns was minted by the client, by that call, or had used up less than 80% of the
lifetime that was read off it when `_ensure_jwt` returned it. -/
structure Sound (reader : TokenReader) (s : TokenRun) : Prop where
  returned : ∀ (i : ℕ) (c : JwtCall), s.calls[i]? = some c →
    ∀ token now, c.point = .returned token now → s.Granted i c token now
  minted : ∀ m ∈ s.mints, ∃ ans wall,
    mintResult ans = .ok m.token ∧ m.lifetime = parseExpSeconds reader wall m.token

/-- A mint that fails leaves the cached token and its times as they are. -/
def FailureUncached (reader : TokenReader) (s : TokenRun) (a : JwtAction) : Prop :=
  ∀ i ans now wall x, a = .answer i ans now wall → mintResult ans = .error x →
    (s.step reader a).cache = s.cache

/-- The law of the cache, in a run, and of the lifetime that is read off a token. -/
structure CacheLaw (reader : TokenReader) (acts : List JwtAction) (wall : FloatVal) (token : String) :
    Prop where
  sound : Runs.Always (step reader) (Sound reader) {} acts
  uncached : Runs.EachStep (step reader) (FailureUncached reader) {} acts
  positive : (parseExpSeconds reader wall token).Positive

/-- **The law holds exactly for tokens that do not make their lifetime NaN**, in the runs in which rounding
puts off no refresh. -/
theorem tokenCache_law (reader : TokenReader) (acts : List JwtAction)
    (hlate : Runs.EachStep (step reader) NotLate {} acts) (wall : FloatVal) (token : String) :
    CacheLaw reader acts wall token ↔ ¬ NanLifetime reader wall token := by
  rw [← parseExpSeconds_positive_iff]
  constructor
  · exact fun h => h.positive
  · intro hpositive
    refine ⟨(Inv.always hlate).mono fun st hinv => ⟨hinv.returned, hinv.minted⟩, ?_, hpositive⟩
    rintro pre a post - i ans now wall x rfl hx
    refine cache_step ?_
    rintro _ _ _ _ ⟨⟩
    exact ⟨x, hx⟩

/-- A reader that knows two payloads, `{"exp": NaN}` and `{"exp": 1900, "iat": 1000}`. -/
def twoPayloads : TokenReader where
  loadSegment segment :=
    if segment = "eyJleHAiOiBOYU59" then some (.obj [("exp", .float ⟨.nan, "nan"⟩)])
    else if segment = "eyJleHAiOiAxOTAwLCAiaWF0IjogMTAwMH0" then
      some (.obj [("exp", .int 1900), ("iat", .int 1000)])
    else none
  floatOfText _ := none

/-- A token with the second payload: it lasts 900 seconds. -/
def quarterHour : String := "e30.eyJleHAiOiAxOTAwLCAiaWF0IjogMTAwMH0.c2ln"

/-- The token is minted at a time, and a later call looks at it. -/
def mintedAndRead (mintedAt now : ℚ) : List JwtAction :=
  [.call false, .enter 0 mintedAt,
    .answer 0 (.ok ⟨200, .ok (.obj [("data", .obj [("token", .str quarterHour)])])⟩) mintedAt (.fin 0),
    .call false, .enter 1 now]

/-- After 700 seconds the token is returned from the cache. -/
theorem tokenCache_law_mintedAndRead :
    CacheLaw twoPayloads (mintedAndRead 1000 1700) (.fin 0) quarterHour :=
  (tokenCache_law twoPayloads (mintedAndRead 1000 1700) (by decide +kernel) (.fin 0) quarterHour).mpr
    (nanLifetime_iff.not.mpr (by decide +kernel))

/-- With the first payload, the lifetime is NaN. With the second, a token that was minted some 1221 seconds
after the clock began is still returned when it is 720 seconds old: in doubles, 80% of what it has left from
then on is a bit more. -/
theorem not_cacheLaw_nan :
    (¬ ∀ (reader : TokenReader) (acts : List JwtAction) (wall : FloatVal) (token : String),
      CacheLaw reader acts wall token) ∧
    ¬ ∀ (reader : TokenReader) (acts : List JwtAction) (wall : FloatVal) (token : String),
      ¬ NanLifetime reader wall token → CacheLaw reader acts wall token := by
  constructor
  · intro h
    have hpositive := (h twoPayloads [] (.fin 0) "e30.eyJleHAiOiBOYU59.c2ln").positive
    revert hpositive
    unfold FloatVal.Positive
    decide +kernel
  · intro h
    let mintedAt : ℚ := 5372144099332759 / 4398046511104
    let run := Runs.exec (step twoPayloads) {} (mintedAndRead mintedAt (mintedAt + 720))
    have hnan : ¬ NanLifetime twoPayloads (.fin 0) quarterHour := nanLifetime_iff.not.mpr (by decide +kernel)
    have hsound := (h twoPayloads (mintedAndRead mintedAt (mintedAt + 720)) (.fin 0) quarterHour hnan).sound
    have hreturned : run.calls[1]? = some ⟨false, .returned quarterHour (mintedAt + 720)⟩ := by decide +kernel
    have hstale :
        ¬ run.Granted 1 ⟨false, .returned quarterHour (mintedAt + 720)⟩ quarterHour (mintedAt + 720) := by
      unfold Granted
      decide +kernel
    have hgranted := (hsound (mintedAndRead mintedAt (mintedAt + 720)) [] (List.append_nil _).symm).returned
      1 _ hreturned quarterHour (mintedAt + 720) rfl
    exact hstale hgranted

end TokenRun

end WazuhMcp
