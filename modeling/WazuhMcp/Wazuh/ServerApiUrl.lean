import WazuhMcp.Foundations.Numeral
import WazuhMcp.Foundations.Substring
import WazuhMcp.Wazuh.ClientPools

/-!
# The derived URL of the Server API

`_derive_server_api_url` swaps `:9200` for `:55000` in the text of the indexer's URL, or appends
`:55000` to it. Here the text is read as the URL that it is: `HttpUrl` has its parts, `HttpUrl.str`
writes them.

* `not_infix_derive`: no `:9200` is left, wherever it stood.
* `derived_iff`: the result is the same URL on port 55000 exactly for a URL without another `:9200`
  that is on port 9200 and does not lose a slash at its end, or that has no port and no path.
-/

namespace WazuhMcp

/-! ## URLs -/

/-- The schemes of an `HttpUrl`. -/
inductive HttpScheme where
  | http
  | https
  deriving DecidableEq

def HttpScheme.text : HttpScheme → String
  | .http => "http"
  | .https => "https"

def HttpScheme.defaultPort : HttpScheme → ℕ
  | .http => 80
  | .https => 443

/-- What a name or an address cannot hold, nor a user name and a password: what sets the parts of a URL
apart from each other. -/
def urlDelimiters : List Char := [' ', '#', '/', ':', '<', '>', '?', '@', '[', '\\', ']', '^', '|']

/-- A name or an IPv4 address, or an IPv6 address. -/
inductive UrlHost where
  | name (text : String) (nonempty : text ≠ "") (plain : ∀ c ∈ text.toList, c ∉ urlDelimiters)
  | ipv6 (text : String) (hex : ∀ c ∈ text.toList, c.isDigit ∨ c ∈ ['a', 'b', 'c', 'd', 'e', 'f', ':'])

/-- The host as it stands in a URL. -/
def UrlHost.text : UrlHost → String
  | .name text _ _ => text
  | .ipv6 text _ => "[" ++ text ++ "]"

/-- `HttpUrl`, in its normal form: the default port is left out, and there is always a path. -/
structure HttpUrl where
  scheme : HttpScheme
  username : String := ""
  password : Option String := none
  host : UrlHost
  port : Option ℕ := none
  path : String := "/"
  query : Option String := none
  fragment : Option String := none
  username_plain : ∀ c ∈ username.toList, c ∉ urlDelimiters
  password_plain : ∀ p, password = some p → ∀ c ∈ p.toList, c ∉ urlDelimiters
  port_lt : ∀ p, port = some p → p < 65536
  port_ne : port ≠ some scheme.defaultPort
  path_head : path.toList.head? = some '/'
  path_plain : ∀ c ∈ path.toList, c ∉ [' ', '?', '#']
  query_plain : ∀ q, query = some q → ∀ c ∈ q.toList, c ∉ [' ', '#']

namespace HttpUrl

/-- The user name and the password, with the sign that closes them. -/
def userinfo (url : HttpUrl) : String :=
  match url.password with
  | some password => url.username ++ ":" ++ password ++ "@"
  | none => if url.username = "" then "" else url.username ++ "@"

/-- What stands before the port. -/
def front (url : HttpUrl) : String := url.scheme.text ++ "://" ++ url.userinfo ++ url.host.text

/-- The port, with the colon before it. -/
def portText (url : HttpUrl) : String := url.port.elim "" fun p => ":" ++ toString p

/-- What stands behind the port. -/
def back (url : HttpUrl) : String :=
  url.path ++ url.query.elim "" ("?" ++ ·) ++ url.fragment.elim "" ("#" ++ ·)

/-- `str(url)` -/
def str (url : HttpUrl) : String := url.front ++ url.portText ++ url.back

/-- The URL on another port. -/
def onPort (url : HttpUrl) (port : ℕ) (hlt : port < 65536) (hne : port ≠ url.scheme.defaultPort) :
    HttpUrl :=
  { url with
    port := some port
    port_lt := fun _ hp => Option.some.inj hp ▸ hlt
    port_ne := fun h => hne (Option.some.inj h) }

/-- A text is the URL: what `str` makes of it, where a path that is a slash may be left out. -/
def IsText (url : HttpUrl) (text : String) : Prop :=
  text = url.str ∨ (url.back = "/" ∧ text ++ "/" = url.str)

end HttpUrl

theorem HttpScheme.defaultPort_ne (s : HttpScheme) : 55000 ≠ s.defaultPort := by
  cases s <;> decide

/-- The same scheme and host, and everything else the same, on port 55000. -/
def HttpUrl.serverApi (url : HttpUrl) : HttpUrl :=
  url.onPort 55000 (by omega) url.scheme.defaultPort_ne

/-! ## The text that is swapped -/

/-- `:9200` -/
def indexerPort : List Char := [':', '9', '2', '0', '0']

/-- `:55000` -/
def serverApiPort : List Char := [':', '5', '5', '0', '0', '0']

/-- The text without the slashes at its end. -/
def stripped (cs : List Char) : List Char := cs.rdropWhile (· == '/')

theorem toList_derive_present {tenant : TenantSettings}
    (h : indexerPort <:+: stripped tenant.indexerUrl.toList) :
    (deriveServerApiUrl tenant).toList =
      Text.replaceChars indexerPort serverApiPort 0 (stripped tenant.indexerUrl.toList) := by
  have hstrip : (Text.rstrip (· == '/') tenant.indexerUrl).toList = stripped tenant.indexerUrl.toList :=
    String.toList_ofList
  have hcontains : Text.contains (Text.rstrip (· == '/') tenant.indexerUrl) ":9200" = true := by
    rw [Text.contains_iff, hstrip]
    exact h
  unfold deriveServerApiUrl
  rw [if_pos hcontains, Text.replace, hstrip, String.toList_ofList]
  rfl

theorem toList_derive_absent {tenant : TenantSettings}
    (h : ¬ indexerPort <:+: stripped tenant.indexerUrl.toList) :
    (deriveServerApiUrl tenant).toList = stripped tenant.indexerUrl.toList ++ serverApiPort := by
  have hstrip : (Text.rstrip (· == '/') tenant.indexerUrl).toList = stripped tenant.indexerUrl.toList :=
    String.toList_ofList
  have hcontains : ¬ Text.contains (Text.rstrip (· == '/') tenant.indexerUrl) ":9200" = true := by
    rw [Text.contains_iff, hstrip]
    exact h
  unfold deriveServerApiUrl
  rw [if_neg hcontains, String.toList_append, hstrip]
  rfl

/-- An occurrence of the indexer's port lies on one side of a place where a port or a path starts. -/
theorem indexerPort_infix_append {x y : List Char}
    (hy : ∀ c, y.head? = some c → c = ':' ∨ c = '/') :
    indexerPort <:+: x ++ y ↔ indexerPort <:+: x ∨ indexerPort <:+: y := by
  apply Text.infix_append_iff_of_head (by decide)
  intro c hc
  rcases hy c hc with rfl | rfl <;> decide

/-- **No `:9200` is left**, whatever the indexer's URL is. -/
theorem not_infix_derive (tenant : TenantSettings) :
    ¬ indexerPort <:+: (deriveServerApiUrl tenant).toList := by
  by_cases h : indexerPort <:+: stripped tenant.indexerUrl.toList
  · rw [toList_derive_present h]
    exact Text.not_infix_replaceChars (by decide) (by decide) (by decide) 0 _
  · have hhead : ∀ c, serverApiPort.head? = some c → c = ':' ∨ c = '/' :=
      fun _ hc => .inl (Option.some.inj hc).symm
    rw [toList_derive_absent h, indexerPort_infix_append hhead, not_or]
    exact ⟨h, by decide⟩

/-! ## The parts of a URL -/

section

variable {pre port post : List Char}

/-- Only slashes behind the port are stripped. -/
theorem stripped_append (hpre : ∀ c, pre.getLast? = some c → c ≠ '/') :
    stripped (pre ++ post) = pre ++ stripped post := by
  induction post using List.reverseRecOn with
  | nil =>
    rw [List.append_nil, stripped, stripped, List.rdropWhile_nil, List.append_nil,
      List.rdropWhile_eq_self_iff]
    intro hne
    simpa using hpre _ (List.getLast?_eq_some_getLast hne)
  | append_singleton post c ih =>
    unfold stripped at ih ⊢
    rw [← List.append_assoc, List.rdropWhile_concat, List.rdropWhile_concat, ih]
    split
    · rfl
    · rw [List.append_assoc]

theorem head?_stripped {c : Char} (h : (stripped post).head? = some c) : post.head? = some c := by
  obtain ⟨rest, hrest⟩ := List.rdropWhile_prefix (p := (· == '/')) (l := post)
  unfold stripped at h
  rw [← hrest, List.head?_append, h, Option.some_or]

theorem stripped_eq_self_iff : stripped post = post ↔ post.getLast? ≠ some '/' := by
  unfold stripped
  cases post using List.reverseRecOn with
  | nil => simp
  | append_singleton post c => simp

/-- The port of a URL, with the colon before it. -/
def portChars (p : Option ℕ) : List Char := p.elim [] fun p => ':' :: Nat.toDigits 10 p

theorem not_mem_toDigits {c : Char} (hc : c.isDigit = false) (p : ℕ) : c ∉ Nat.toDigits 10 p := by
  intro hmem
  rw [Nat.isDigit_of_mem_toDigits (by omega) (by omega) hmem] at hc
  cases hc

/-- Of the ports, 9200 only starts with these digits. -/
theorem indexerPort_infix_portChars {p : ℕ} (hp : p < 65536) :
    indexerPort <:+: portChars (some p) ↔ p = 9200 := by
  constructor
  · intro h
    rcases List.infix_cons_iff.mp h with hfront | hrest
    · obtain ⟨rest, hrest⟩ := (List.cons_prefix_cons.mp hfront).2
      have hlen : (Nat.toDigits 10 p).length ≤ 5 :=
        (Nat.length_toDigits_le_iff (by omega) (by omega)).mpr (by omega)
      have hread := Text.natOfDigits_toDigits p
      rw [← hrest] at hlen hread
      cases rest with
      | nil => exact hread.symm
      | cons d rest =>
        cases rest with
        | nil =>
          have hbig : 92000 ≤ p := by
            rw [← hread, Text.natOfDigits_append]
            exact Nat.le_add_right _ _
          omega
        | cons e rest =>
          simp only [List.length_append, List.length_cons, List.length_nil] at hlen
          omega
    · exact absurd (hrest.subset List.mem_cons_self) (not_mem_toDigits (by decide) p)
  · rintro rfl
    decide

/-- The port is swapped, where there is no other occurrence. -/
theorem replaceChars_port (hpre : ¬ indexerPort <:+: pre) (hpost : ¬ indexerPort <:+: post) :
    Text.replaceChars indexerPort serverApiPort 0 (pre ++ (indexerPort ++ post)) =
      pre ++ (serverApiPort ++ post) := by
  rw [Text.replaceChars_append hpre]
  · have hmatch : Text.replaceChars indexerPort serverApiPort 0 (indexerPort ++ post) =
        serverApiPort ++ Text.replaceChars indexerPort serverApiPort 0 post := Text.replaceChars_match
    rw [hmatch, Text.replaceChars_of_not_infix hpost]
  · intro c hc
    obtain rfl : ':' = c := Option.some.inj hc
    decide

/-- A port is not followed by `:55000` where the port `55000` would stand. -/
theorem port_append_ne {p : ℕ} (hpost : post.head? = some '/') :
    portChars (some p) ++ (stripped post ++ serverApiPort) ≠ serverApiPort ++ post := by
  intro h
  have htail : Nat.toDigits 10 p ++ (stripped post ++ serverApiPort) = ['5', '5', '0', '0', '0'] ++ post :=
    (List.cons.inj h).2
  obtain ⟨rest, rfl⟩ := List.head?_eq_some_iff.mp hpost
  cases hstrip : stripped ('/' :: rest) with
  | nil =>
    -- the path would be missing
    rw [hstrip, List.nil_append] at htail
    have hmem : '/' ∈ Nat.toDigits 10 p ++ serverApiPort := by
      rw [htail]
      simp
    rcases List.mem_append.mp hmem with hdigits | hport
    · exact not_mem_toDigits (by decide) p hdigits
    · revert hport
      decide
  | cons c r =>
    -- both texts go on behind the port with the path, which would end twice with the new port
    have hc : ('/' :: rest).head? = some c := head?_stripped (by rw [hstrip]; rfl)
    obtain rfl : '/' = c := Option.some.inj hc
    rw [hstrip, List.cons_append] at htail
    obtain ⟨-, hrest⟩ := Text.append_sep_inj (not_mem_toDigits (by decide) p) (by decide) htail
    have hself : stripped ('/' :: rest) = '/' :: rest := by
      rw [stripped_eq_self_iff, ← hrest, ← List.cons_append,
        List.getLast?_append_of_ne_nil _ (by decide)]
      decide
    rw [hself] at hstrip
    have hlen := congrArg List.length hrest
    rw [List.length_append, ← (List.cons.inj hstrip).2] at hlen
    simp [serverApiPort] at hlen

end

/-! ## The derived URL -/

namespace HttpUrl

variable {url : HttpUrl}

theorem toList_portText : url.portText.toList = portChars url.port := by
  unfold portText portChars
  cases url.port with
  | none => rfl
  | some p => simp

theorem toList_str :
    url.str.toList = url.front.toList ++ portChars url.port ++ url.back.toList := by
  rw [str, String.toList_append, String.toList_append, toList_portText]

theorem back_head : url.back.toList.head? = some '/' := by
  unfold back
  rw [String.toList_append, String.toList_append, List.head?_append, List.head?_append,
    url.path_head]
  rfl

theorem getLast_host {host : UrlHost} {c : Char} (h : host.text.toList.getLast? = some c) :
    c ≠ '/' := by
  cases host with
  | name text nonempty plain =>
    rintro rfl
    exact plain '/' (List.mem_of_getLast? h) (by decide)
  | ipv6 text hex =>
    rintro rfl
    rw [UrlHost.text, String.toList_append, List.getLast?_append_of_ne_nil _ (by decide)] at h
    revert h
    decide

theorem host_ne_nil {host : UrlHost} : host.text.toList ≠ [] := by
  cases host with
  | name text nonempty plain => simpa [UrlHost.text] using nonempty
  | ipv6 text hex => simp [UrlHost.text]

/-- What stands before the path does not end with a slash. -/
theorem getLast_before_back {c : Char}
    (h : (url.front.toList ++ portChars url.port).getLast? = some c) : c ≠ '/' := by
  cases hport : url.port with
  | none =>
    rw [hport, portChars, Option.elim_none, List.append_nil, front, String.toList_append,
      List.getLast?_append_of_ne_nil _ host_ne_nil] at h
    exact getLast_host h
  | some p =>
    have hne : Nat.toDigits 10 p ≠ [] := Nat.toDigits_ne_nil
    rw [hport, portChars, Option.elim_some, List.getLast?_append_of_ne_nil _ (List.cons_ne_nil _ _),
      List.getLast?_cons_of_ne_nil hne] at h
    rintro rfl
    exact not_mem_toDigits (by decide) p (List.mem_of_getLast? h)

theorem stripped_str :
    stripped url.str.toList = url.front.toList ++ portChars url.port ++ stripped url.back.toList := by
  rw [toList_str, stripped_append fun _ => getLast_before_back]

theorem head_back_stripped {c : Char} (h : (stripped url.back.toList).head? = some c) :
    c = ':' ∨ c = '/' := by
  have hc := head?_stripped h
  rw [back_head] at hc
  exact .inr (Option.some.inj hc).symm

theorem head_portChars {p : Option ℕ} {c : Char} (h : (portChars p).head? = some c) :
    c = ':' ∨ c = '/' := by
  cases p with
  | none => cases h
  | some p => exact .inl (Option.some.inj h).symm

/-- Where the stripped text of a URL has the indexer's port. -/
theorem infix_stripped_str :
    indexerPort <:+: stripped url.str.toList ↔
      (indexerPort <:+: url.front.toList ∨ url.port = some 9200) ∨
        indexerPort <:+: stripped url.back.toList := by
  rw [stripped_str, indexerPort_infix_append fun _ => head_back_stripped,
    indexerPort_infix_append fun _ => head_portChars]
  cases hport : url.port with
  | none => simp [portChars, indexerPort]
  | some p => rw [indexerPort_infix_portChars (url.port_lt p hport), Option.some.injEq]

/-- The text of the URL of the Server API, by its parts. -/
theorem isText_serverApi {text : String} :
    url.serverApi.IsText text ↔
      text.toList = url.front.toList ++ (serverApiPort ++ url.back.toList) ∨
        (url.back.toList = ['/'] ∧ text.toList = url.front.toList ++ serverApiPort) := by
  have hstr : url.serverApi.str.toList = url.front.toList ++ (serverApiPort ++ url.back.toList) := by
    rw [toList_str, List.append_assoc]
    rfl
  have hback : url.serverApi.back = url.back := rfl
  unfold IsText
  rw [hback, ← String.toList_inj, hstr, ← @String.toList_inj url.back]
  refine or_congr_right (and_congr_right fun hslash => ?_)
  rw [← String.toList_inj, hstr, hslash, String.toList_append, ← List.append_assoc]
  exact List.append_left_inj _

/-- The URL has no `:9200` but its port, and is on port 9200 without a slash at its end, or has neither a
port nor a path. -/
def Derivable (url : HttpUrl) : Prop :=
  Text.contains url.front ":9200" = false ∧ Text.contains url.back ":9200" = false ∧
    (url.port = some 9200 ∧ (url.back = "/" ∨ Text.endsWith url.back "/" = false) ∨
      url.port = none ∧ url.back = "/")

theorem contains_eq_false {s : String} :
    Text.contains s ":9200" = false ↔ ¬ indexerPort <:+: s.toList := by
  rw [← Bool.not_eq_true, Text.contains_iff]
  rfl

theorem endsWith_slash_eq_false {s : String} :
    Text.endsWith s "/" = false ↔ s.toList.getLast? ≠ some '/' := by
  rw [← stripped_eq_self_iff, stripped, ← Bool.not_eq_true, Text.endsWith, List.isSuffixOf_iff_suffix]
  cases s.toList using List.reverseRecOn with
  | nil => simp
  | append_singleton cs c => simp [List.singleton_suffix_iff_getLast?_eq_some]

/-- The text that is derived from the URL. -/
def derivedText (url : HttpUrl) (tenant : TenantSettings) : List Char :=
  (deriveServerApiUrl { tenant with indexerUrl := url.str }).toList

theorem not_infix_stripped_back (hback : ¬ indexerPort <:+: url.back.toList) :
    ¬ indexerPort <:+: stripped url.back.toList :=
  fun h => hback (h.trans (List.rdropWhile_prefix _ _).isInfix)

section

variable {tenant : TenantSettings} (hfront : ¬ indexerPort <:+: url.front.toList)
  (hback : ¬ indexerPort <:+: url.back.toList)
include hfront hback

/-- On port 9200, the port is swapped. -/
theorem derivedText_of_indexerPort (hport : url.port = some 9200) :
    url.derivedText tenant = url.front.toList ++ (serverApiPort ++ stripped url.back.toList) := by
  have hin : indexerPort <:+: stripped url.str.toList := infix_stripped_str.mpr (.inl (.inr hport))
  rw [derivedText, @toList_derive_present { tenant with indexerUrl := url.str } hin, stripped_str, hport,
    List.append_assoc]
  exact replaceChars_port hfront (not_infix_stripped_back hback)

/-- Off port 9200, the new port is appended. -/
theorem derivedText_of_ne (hport : url.port ≠ some 9200) :
    url.derivedText tenant =
      url.front.toList ++ (portChars url.port ++ (stripped url.back.toList ++ serverApiPort)) := by
  have hout : ¬ indexerPort <:+: stripped url.str.toList := by
    rw [infix_stripped_str]
    rintro ((h | h) | h)
    · exact hfront h
    · exact hport h
    · exact not_infix_stripped_back hback h
  rw [derivedText, @toList_derive_absent { tenant with indexerUrl := url.str } hout, stripped_str]
  simp only [List.append_assoc]

end

/-- Without a port, a path is not followed by `:55000` where it would stand behind. -/
theorem path_append_ne :
    portChars none ++ (stripped url.back.toList ++ serverApiPort) ≠ serverApiPort ++ url.back.toList := by
  intro h
  have hhead := url.back_head
  have hpath : stripped url.back.toList ++ serverApiPort = serverApiPort ++ url.back.toList := h
  cases hstrip : stripped url.back.toList with
  | nil =>
    rw [hstrip] at hpath
    have hnil : url.back.toList = [] := List.self_eq_append_right.mp hpath
    rw [hnil] at hhead
    cases hhead
  | cons c rest =>
    have hc : url.back.toList.head? = some c := head?_stripped (by rw [hstrip]; rfl)
    rw [hstrip] at hpath
    rw [hhead, (List.cons.inj hpath).1] at hc
    exact absurd hc (by decide)

/-- What the derivation should come to, up to the slash of an empty path. -/
def DerivesServerApi (url : HttpUrl) (tenant : TenantSettings) : Prop :=
  url.derivedText tenant = url.front.toList ++ (serverApiPort ++ url.back.toList) ∨
    url.back.toList = ['/'] ∧ url.derivedText tenant = url.front.toList ++ serverApiPort

section

variable {tenant : TenantSettings} (h : url.DerivesServerApi tenant)
include h

/-- `:9200` is not in front of the port, as it would be swapped there. -/
theorem front_plain_of_derives : ¬ indexerPort <:+: url.front.toList := by
  have hnone : ¬ indexerPort <:+: url.derivedText tenant := not_infix_derive _
  intro hin
  rcases h with h | ⟨-, h⟩
  · exact hnone (h ▸ List.infix_append_of_infix_left hin)
  · exact hnone (h ▸ List.infix_append_of_infix_left hin)

/-- `:9200` is not behind the port. -/
theorem back_plain_of_derives : ¬ indexerPort <:+: url.back.toList := by
  have hnone : ¬ indexerPort <:+: url.derivedText tenant := not_infix_derive _
  intro hin
  rcases h with h | ⟨hslash, -⟩
  · exact hnone (h ▸ List.infix_append_of_infix_right (List.infix_append_of_infix_right hin))
  · rw [hslash] at hin
    exact absurd hin (by decide)

/-- On port 9200, the end of the URL is a bare slash or no slash. -/
theorem slash_of_derives (hport : url.port = some 9200) :
    url.back.toList = ['/'] ∨ url.back.toList.getLast? ≠ some '/' := by
  have hfront := front_plain_of_derives h
  have hback := back_plain_of_derives h
  rw [DerivesServerApi, derivedText_of_indexerPort hfront hback hport] at h
  rcases h with h | ⟨hslash, -⟩
  · have hself := List.append_cancel_left (List.append_cancel_left h)
    exact .inr (stripped_eq_self_iff.mp hself)
  · exact .inl hslash

/-- Off port 9200, there is no port and no path. -/
theorem bare_of_derives (hport : url.port ≠ some 9200) : url.port = none ∧ url.back.toList = ['/'] := by
  have hfront := front_plain_of_derives h
  have hback := back_plain_of_derives h
  rw [DerivesServerApi, derivedText_of_ne hfront hback hport] at h
  cases hp : url.port with
  | none =>
    refine ⟨rfl, ?_⟩
    rcases h with h | ⟨hslash, -⟩
    · rw [hp] at h
      exact absurd (List.append_cancel_left h) path_append_ne
    · exact hslash
  | some p =>
    rw [hp] at h
    rcases h with h | ⟨-, h⟩
    · exact absurd (List.append_cancel_left h) (port_append_ne back_head)
    · -- behind the colon of the port, another one cannot be
      have hdigits := (List.cons.inj (List.append_cancel_left h)).2
      have hmem : ':' ∈ ['5', '5', '0', '0', '0'] := by
        rw [← hdigits]
        simp [serverApiPort]
      exact absurd hmem (by decide)

end

/-- **The derived URL is the indexer's on port 55000 exactly if the URL is derivable.** -/
theorem derived_iff (tenant : TenantSettings) (url : HttpUrl) :
    url.serverApi.IsText (deriveServerApiUrl { tenant with indexerUrl := url.str }) ↔
      url.Derivable := by
  rw [isText_serverApi, Derivable, contains_eq_false, contains_eq_false, endsWith_slash_eq_false,
    ← @String.toList_inj url.back]
  show url.DerivesServerApi tenant ↔ _
  constructor
  · intro h
    refine ⟨front_plain_of_derives h, back_plain_of_derives h, ?_⟩
    by_cases hport : url.port = some 9200
    · exact .inl ⟨hport, slash_of_derives h hport⟩
    · exact .inr (bare_of_derives h hport)
  · rintro ⟨hfront, hback, ⟨hport, hslash⟩ | ⟨hport, hslash⟩⟩
    · rw [DerivesServerApi, derivedText_of_indexerPort hfront hback hport]
      rcases hslash with hslash | hslash
      · refine .inr ⟨hslash, ?_⟩
        rw [hslash]
        rfl
      · rw [stripped_eq_self_iff.mpr hslash]
        exact .inl rfl
    · refine .inr ⟨hslash, ?_⟩
      rw [derivedText_of_ne hfront hback (by simp [hport]), hport, hslash]
      rfl

end HttpUrl

/-- `https://wazuh:9201/`: an indexer on a port of its own. -/
def indexer9201 : HttpUrl where
  scheme := .https
  host := .name "wazuh" (by decide) fun c hc =>
    of_decide_eq_true (List.all_eq_true.mp
      (by decide : "wazuh".toList.all (fun c => decide (c ∉ urlDelimiters)) = true) c hc)
  port := some 9201
  username_plain := by simp
  password_plain := by simp
  port_lt := by simp
  port_ne := by simp [HttpScheme.defaultPort]
  path_head := rfl
  path_plain := by simp
  query_plain := by simp

/-- Behind a port that is not 9200 a second one is written, `https://wazuh:9201:55000`. -/
theorem derived_twoPorts :
    ¬ ∀ (tenant : TenantSettings) (url : HttpUrl),
      url.serverApi.IsText (deriveServerApiUrl { tenant with indexerUrl := url.str }) := by
  intro h
  rcases h { tenantId := "acme", defaultRbacRole := "analyst", indexerUrl := "" } indexer9201 with
    htext | ⟨-, htext⟩
  · revert htext
    decide +kernel
  · revert htext
    decide +kernel

end WazuhMcp
