import Mathlib
import MonkeyOcr.Codec.Sha256
import MonkeyOcr.Gateway.RequestId
import MonkeyOcr.Text.Trim

namespace MonkeyOcr

namespace Gateway

/-- The bytes of a text that need not be UTF-8. -/
abbrev Octets := List (BitVec 8)

/-- `http.Header`. Names are compared in their canonical form. -/
structure Header where
  values : String → List Octets

namespace Header

def get (header : Header) (name : String) : Octets := (header.values name).head?.getD []

def set (header : Header) (name : String) (value : Octets) : Header := ⟨Function.update header.values name [value]⟩

def add (header : Header) (name : String) (value : Octets) : Header :=
  ⟨Function.update header.values name (header.values name ++ [value])⟩

def del (header : Header) (name : String) : Header := ⟨Function.update header.values name []⟩

variable {header : Header} {name other : String} {value : Octets}

@[simp] theorem values_set : (header.set name value).values name = [value] := Function.update_self ..

@[simp] theorem get_set : (header.set name value).get name = value := by simp [get]

@[simp] theorem values_del : (header.del name).values name = [] := Function.update_self ..

theorem values_set_of_ne (apart : other ≠ name) : (header.set name value).values other = header.values other :=
  Function.update_of_ne apart _ _

theorem values_del_of_ne (apart : other ≠ name) : (header.del name).values other = header.values other :=
  Function.update_of_ne apart _ _

theorem get_congr {header' : Header} (same : header'.values name = header.values name) :
    header'.get name = header.get name := by rw [get, get, same]

end Header

def headerXRequestId : String := "X-Request-ID"

def headerXApiKeyFingerprint : String := "X-API-Key-Fingerprint"

def headerXForwardedFor : String := "X-Forwarded-For"

def headerXRealIp : String := "X-Real-IP"

/-! ### Addresses -/

/-- `strings.Cut` at the last of these bytes. -/
def cutLast (separator : BitVec 8) (text : Octets) : Option (Octets × Octets) :=
  if text.contains separator then
    let back := text.reverse.takeWhile (· ≠ separator)
    some (text.take (text.length - back.length - 1), back.reverse)
  else none

/-- The host of `net.SplitHostPort`. -/
def splitHostPort (hostport : Octets) : Option Octets :=
  match cutLast 58 hostport with
  | none => none
  | some (front, port) =>
    if port.contains 91 || port.contains 93 then none
    else
      match hostport with
      | 91 :: rest =>
        let host := rest.takeWhile (· ≠ 93)
        if front = 91 :: (host ++ [93]) ∧ ¬ host.contains 91 then some host else none
      | _ => if front.contains 58 || front.contains 91 || front.contains 93 then none else some front

/-- `ClientIP`, for a header and a remote address. -/
def clientIp (header : Header) (remoteAddr : Octets) : Octets :=
  let realIp := Bytes.trimSpace (header.get headerXRealIp)
  if realIp ≠ [] then realIp
  else
    let forwardedFor := Bytes.trimSpace (header.get headerXForwardedFor)
    if forwardedFor ≠ [] then
      Bytes.trimSpace ((cutLast 44 forwardedFor).elim forwardedFor Prod.snd)
    else (splitHostPort remoteAddr).getD (Bytes.trimSpace remoteAddr)

/-! ### Routes -/

def publicExactPaths : List Octets := ["/health", "/health/live", "/health/ready", "/openapi.json"].map Bytes.utf8

def publicPathPrefixes : List Octets := []

def isPublicPath (path : Octets) : Bool :=
  path ∈ publicExactPaths ∨ ∃ front ∈ publicPathPrefixes, front <+: path

structure Route where
  isPublic : Bool := false
  authRequired : Bool := false
  localHealth : Bool := false
  upstreamService : String := ""
  upstreamAddr : String := ""

/-- `RoutePolicy.Resolve` -/
def Route.resolve (backendUrl : String) (path : Octets) : Route :=
  if path = Bytes.utf8 "/health" then { isPublic := true, localHealth := true }
  else
    { isPublic := isPublicPath path
      authRequired := !isPublicPath path
      upstreamService := "monkeyocr-backend"
      upstreamAddr := backendUrl }

/-! ### Identities -/

structure Identity where
  apiKeyFingerprint : Octets

/-- `IdentityPolicy.Apply` -/
def Identity.apply (header : Header) (identity : Option Identity) : Header :=
  let header := header.del headerXApiKeyFingerprint
  match identity with
  | none => header
  | some identity =>
    if Bytes.trimSpace identity.apiKeyFingerprint ≠ [] then
      header.set headerXApiKeyFingerprint identity.apiKeyFingerprint
    else header

structure HashRecord where
  id : Octets
  digest : List (BitVec 32)

/-- `StaticSHA256Validator.Validate`, which compares with every record. -/
def validate (records : List HashRecord) (token : Octets) : Option Octets :=
  if token = [] then none
  else
    let digest := Codec.Sha256.digest token
    let matchedId := records.foldl (fun matched record => if digest = record.digest then record.id else matched) []
    if matchedId = [] then none else some matchedId

/-- `strings.IndexFunc(token, unicode.IsSpace) >= 0` -/
def hasSpace (token : Octets) : Bool := Bytes.spaces.any fun code => decide (code <:+: token)

/-- The hexadecimal digest of the token. -/
def fingerprint (token : Octets) : Octets :=
  (Codec.Sha256.digest token).flatMap fun word => (List.range 8).map fun i => hexDigit (word.toNat / 16 ^ (7 - i) % 16)

/-- `Authenticator.Authenticate`, with the records of its validator, if it has one. -/
def authenticate (validator : Option (List HashRecord)) (token : Octets) : Option Identity :=
  if token = [] ∨ 512 < token.length ∨ hasSpace token then none
  else if validator.any fun records => (validate records token).isNone then none
  else some ⟨fingerprint token⟩

/-- The token behind `Bearer `, of a header that has one. -/
def bearer? (authorization : Octets) : Option Octets :=
  let raw := Bytes.trimSpace authorization
  if Bytes.utf8 "Bearer " <+: raw then some (Bytes.trimSpace (raw.drop 7)) else none

/-! ### What a reverse proxy does to the headers of a request -/

def lower (text : Octets) : Octets := text.map fun b => if 65 ≤ b ∧ b ≤ 90 then b + 32 else b

/-- `textproto.TrimString` -/
def trimString (text : Octets) : Octets :=
  let space := fun b : BitVec 8 => b = 32 ∨ b = 9 ∨ b = 10 ∨ b = 13
  ((text.dropWhile space).reverse.dropWhile space).reverse

/-- The `Connection` header of the request names the header. -/
def Header.hopByHop (header : Header) (name : String) : Bool :=
  (header.values "Connection").any fun value =>
    (value.splitOn 44).any fun part => lower (trimString part) = lower (Bytes.utf8 name)

def hopHeaders : List String :=
  ["Connection", "Proxy-Connection", "Keep-Alive", "Proxy-Authenticate", "Proxy-Authorization", "Te", "Trailer",
    "Transfer-Encoding", "Upgrade"]

/-- `removeHopByHopHeaders` of `httputil.ReverseProxy`. -/
def removeHopByHopHeaders (header : Header) : Header :=
  ⟨fun name => if header.hopByHop name ∨ name ∈ hopHeaders then [] else header.values name⟩

/-- The address of the client is appended to those of the proxies before. -/
def forwardedFor (header : Header) (remoteAddr : Octets) : Header :=
  match splitHostPort remoteAddr with
  | none => header
  | some host =>
    let prior := header.values headerXForwardedFor
    if prior = [] then header.set headerXForwardedFor host
    else header.set headerXForwardedFor ((prior.intersperse [44, 32]).flatten ++ [44, 32] ++ host)

/-- `httpguts.HeaderValuesContainsToken` -/
def containsToken (values : List Octets) (token : String) : Bool :=
  values.any fun value =>
    (value.splitOn 44).any fun part => lower (trim (fun b => b = 32 ∨ b = 9) part) = lower (Bytes.utf8 token)

/-- The protocol that a request asks to change to, if any. -/
def upgradeType (header : Header) : Octets :=
  if containsToken (header.values "Connection") "Upgrade" then header.get "Upgrade" else []

/-- `ascii.IsPrint` -/
def isPrint (text : Octets) : Bool := text.all fun b => 32 ≤ b ∧ b ≤ 126

/-- The header without what is for one hop, but for trailers and a change of the protocol. -/
def throughHop (header : Header) : Header :=
  let sent := removeHopByHopHeaders header
  let sent := if containsToken (header.values "Te") "trailers" then sent.set "Te" (Bytes.utf8 "trailers") else sent
  if upgradeType header ≠ [] then
    (sent.set "Connection" (Bytes.utf8 "Upgrade")).set "Upgrade" (upgradeType header)
  else sent

/-- The header that `httputil.ReverseProxy` gives to the transport, which sends no empty
`User-Agent`. -/
def proxiedHeader (header : Header) (remoteAddr : Octets) : Header :=
  let sent := forwardedFor (throughHop header) remoteAddr
  if sent.values "User-Agent" = [] then sent.set "User-Agent" [] else sent

/-- What a proxy puts back of the headers that go from hop to hop. -/
def restored (header : Header) (name : String) : List Octets :=
  if name = "Te" then if containsToken (header.values "Te") "trailers" then [Bytes.utf8 "trailers"] else []
  else if upgradeType header = [] then []
  else if name = "Connection" then [Bytes.utf8 "Upgrade"]
  else if name = "Upgrade" then [upgradeType header]
  else []

/-- A fingerprint is visible ASCII, of eight digits for each word of the digest. -/
theorem fingerprint_visible (token : Octets) :
    (∀ b ∈ fingerprint token, 32 < b ∧ b < 128) ∧ (fingerprint token).length = 64 := by
  constructor
  · intro b member
    obtain ⟨word, -, digit⟩ := List.mem_flatMap.mp member
    obtain ⟨i, -, rfl⟩ := List.mem_map.mp digit
    exact hexDigit_visible _ (Nat.mod_lt _ (by omega))
  · rw [fingerprint, List.length_flatMap]
    simp [Codec.Sha256.digest]

theorem fingerprint_ne_nil (token : Octets) : fingerprint token ≠ [] := by
  intro empty
  have length := (fingerprint_visible token).2
  rw [empty, List.length_nil] at length
  omega

theorem apply_fingerprint (header : Header) (token : Octets) :
    (Identity.apply header (some ⟨fingerprint token⟩)).values headerXApiKeyFingerprint = [fingerprint token] := by
  have seen : Bytes.trimSpace (fingerprint token) ≠ [] := by
    rw [Bytes.trimSpace_of_trimmed (Bytes.trimmed_of_visible (fingerprint_visible token).1)]
    exact fingerprint_ne_nil token
  simp [Identity.apply, seen]

/-- Who is authenticated has the fingerprint of the token. -/
theorem authenticate_some {validator : Option (List HashRecord)} {token : Octets} {identity : Identity}
    (authentic : authenticate validator token = some identity) : identity = ⟨fingerprint token⟩ := by
  unfold authenticate at authentic
  split at authentic
  · cases authentic
  · split at authentic
    · cases authentic
    · exact (Option.some.inj authentic).symm

theorem apply_none (header : Header) : (Identity.apply header none).values headerXApiKeyFingerprint = [] := by
  simp [Identity.apply]

/-- The policy touches its own header only. -/
theorem apply_of_ne {header : Header} {identity : Option Identity} {name : String}
    (apart : name ≠ headerXApiKeyFingerprint) : (Identity.apply header identity).values name = header.values name := by
  unfold Identity.apply
  cases identity with
  | none => exact Header.values_del_of_ne apart
  | some identity =>
    by_cases blank : Bytes.trimSpace identity.apiKeyFingerprint = []
    · simp only [blank, ne_eq, not_true_eq_false, if_false]
      exact Header.values_del_of_ne apart
    · simp only [blank, ne_eq, not_false_eq_true, if_true]
      rw [Header.values_set_of_ne apart, Header.values_del_of_ne apart]

/-- Of the headers for one hop only what is put back is left. -/
theorem throughHop_values (header : Header) (name : String) :
    (throughHop header).values name =
      if name ∈ hopHeaders then restored header name else if header.hopByHop name then [] else header.values name := by
  have removed : (removeHopByHopHeaders header).values name =
      if name ∈ hopHeaders then [] else if header.hopByHop name then [] else header.values name := by
    by_cases hop : name ∈ hopHeaders <;> simp [removeHopByHopHeaders, hop]
  unfold throughHop restored
  dsimp only
  by_cases upgrade : name = "Upgrade"
  · subst upgrade
    by_cases none' : upgradeType header = [] <;>
      by_cases trailers : containsToken (header.values "Te") "trailers" = true <;>
      simp [none', trailers, removed, hopHeaders, Header.values_set_of_ne]
  · by_cases connection : name = "Connection"
    · subst connection
      by_cases none' : upgradeType header = [] <;>
        by_cases trailers : containsToken (header.values "Te") "trailers" = true <;>
        simp [none', trailers, removed, hopHeaders, Header.values_set_of_ne]
    · rw [apply_ite (fun sent : Header => sent.values name), Header.values_set_of_ne upgrade,
        Header.values_set_of_ne connection, ite_self]
      by_cases te : name = "Te"
      · subst te
        by_cases trailers : containsToken (header.values "Te") "trailers" = true <;>
          simp [trailers, removed, hopHeaders]
      · rw [apply_ite (fun sent : Header => sent.values name), Header.values_set_of_ne te, ite_self, removed]
        simp [te, connection, upgrade]

theorem forwardedFor_of_ne {header : Header} {remoteAddr : Octets} {name : String} (apart : name ≠ headerXForwardedFor) :
    (forwardedFor header remoteAddr).values name = header.values name := by
  unfold forwardedFor
  split
  · rfl
  · dsimp only
    split <;> exact Header.values_set_of_ne apart

/-- A proxy adds to what passes the hop the address of the client, and an empty
`User-Agent` where there is none. -/
theorem proxiedHeader_values (header : Header) (remoteAddr : Octets) {name : String}
    (apart : name ≠ headerXForwardedFor) :
    (proxiedHeader header remoteAddr).values name =
      if name = "User-Agent" ∧ (throughHop header).values name = [] then [[]] else (throughHop header).values name := by
  have agent : (forwardedFor (throughHop header) remoteAddr).values "User-Agent" =
      (throughHop header).values "User-Agent" := forwardedFor_of_ne (by decide)
  unfold proxiedHeader
  dsimp only
  rw [agent]
  by_cases named : name = "User-Agent"
  · subst named
    by_cases missing : (throughHop header).values "User-Agent" = [] <;> simp [missing, agent]
  · rw [apply_ite (fun sent : Header => sent.values name), Header.values_set_of_ne named, ite_self,
      forwardedFor_of_ne apart, if_neg fun both => named both.1]

theorem proxiedHeader_of_ne {header : Header} {remoteAddr : Octets} {name : String} (apart : name ≠ headerXForwardedFor)
    (agent : name ≠ "User-Agent") : (proxiedHeader header remoteAddr).values name = (throughHop header).values name := by
  rw [proxiedHeader_values header remoteAddr apart, if_neg fun both => agent both.1]

/-- The address of the client is appended to what the client has sent of others. -/
theorem proxiedHeader_client {header own : Header} {remoteAddr : Octets}
    (same : (throughHop header).values headerXForwardedFor = own.values headerXForwardedFor) :
    (proxiedHeader header remoteAddr).values headerXForwardedFor =
      (forwardedFor own remoteAddr).values headerXForwardedFor := by
  have kept : (proxiedHeader header remoteAddr).values headerXForwardedFor =
      (forwardedFor (throughHop header) remoteAddr).values headerXForwardedFor := by
    unfold proxiedHeader
    dsimp only
    rw [apply_ite (fun sent : Header => sent.values headerXForwardedFor), Header.values_set_of_ne (by decide), ite_self]
  rw [kept, forwardedFor, forwardedFor]
  split
  · exact same
  · rw [same]
    dsimp only
    split <;> rw [Header.values_set, Header.values_set]

end Gateway

end MonkeyOcr
