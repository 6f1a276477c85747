import RailsCore.IpAddr
import RailsCore.UsersService

/-!
# The key that a request is rate limited by

A request from a trusted proxy is counted for the client that the proxies name,
and any other for its peer. The proxies append the address they saw to
`X-Forwarded-For`, behind whatever the client has put there, and the last one
names the same address in `X-Real-IP`. The users and the accounts service read
the header each in a copy of their own: the former skips what is not an address,
the latter gives the whole header up. What is given up is replaced by
`X-Real-IP`, the address that the last proxy saw, which is the client only where
the last proxy is the first one, too.
-/

namespace RailsCore.ClientKeys
open Net UsersService

/-- What `extract_client_key` reads of a request: the address of the peer, and the
first value of each header. -/
structure Request where
  peer : Option IpAddr
  forwardedFor : Option HeaderValue
  realIp : Option HeaderValue
deriving DecidableEq, Repr

/-- The parts of a list between commas, trimmed, without those that are empty. -/
def tokens (s : String) : List String :=
  ((s.toList.splitOn ',').map fun part => trim (String.ofList part)).filter fun token => token ≠ ""

/-- `trusted_proxy_ips`, of the value of the variable. -/
def trustedProxyIps (value : Option String) : List IpAddr :=
  (tokens (value.getD "")).filterMap parse

def extractRealIp (req : Request) : Option String :=
  match (req.realIp.bind HeaderValue.toStr).map trim with
  | none => none
  | some realIp => if realIp = "" then none else (parse realIp).map display

/-- `parse_forwarded_for`, with what the loop makes of the tokens. -/
def parseForwardedFor (loop : List String → Option (List IpAddr)) (req : Request) :
    Option (List IpAddr) := do
  let forwardedFor ← req.forwardedFor.bind HeaderValue.toStr
  let ips ← loop (tokens forwardedFor)
  if ips = [] then none else some ips

def extractForwardedIp (loop : List String → Option (List IpAddr)) (req : Request) (peer : IpAddr)
    (trustedProxies : List IpAddr) : Option String := do
  let forwardedIps ← parseForwardedFor loop req
  let lastHop ← forwardedIps.getLast?
  if lastHop ≠ peer ∧ lastHop ∉ trustedProxies then none
  else (forwardedIps.reverse.find? fun ip => ip ∉ trustedProxies).map display

def extractClientKey (loop : List String → Option (List IpAddr)) (req : Request)
    (trustedProxyEnv : Option String) : String :=
  match req.peer with
  | some peer =>
    let trustedProxies := trustedProxyIps trustedProxyEnv
    if peer ∈ trustedProxies then
      match extractForwardedIp loop req peer trustedProxies with
      | some forwardedIp => forwardedIp
      | none => (extractRealIp req).getD (display peer)
    else display peer
  | none => (extractRealIp req).getD "unknown"

/-- The loop of the users service: a token that is no address is skipped. -/
def Users.addresses (tokens : List String) : Option (List IpAddr) := some (tokens.filterMap parse)

/-- The loop of the accounts service: a token that is no address ends it. -/
def Accounts.addresses (tokens : List String) : Option (List IpAddr) := tokens.mapM parse

def Users.extractClientKey : Request → Option String → String :=
  ClientKeys.extractClientKey Users.addresses

def Accounts.extractClientKey : Request → Option String → String :=
  ClientKeys.extractClientKey Accounts.addresses

/-! ## Proxies -/

/-- A proxy, with the text that it writes for an address. -/
structure Proxy where
  addr : IpAddr
  write : IpAddr → String
  setsRealIp : Bool
  reads : ∀ ip, parse (write ip) = some ip
  plain : ∀ ip, ∀ c ∈ (write ip).toList, IsAddrChar c

/-- What a proxy makes of the headers of a request that it got from `remote`. -/
def Proxy.forward (proxy : Proxy) (remote : IpAddr) (req : Request) : Request where
  peer := req.peer
  forwardedFor := match req.forwardedFor with
    | none => some (headerOf (proxy.write remote))
    | some value => some (value ++ headerOf (", " ++ proxy.write remote))
  realIp := if proxy.setsRealIp then some (headerOf (proxy.write remote)) else req.realIp

/-- The request as it arrives at the service, sent by `remote` through the proxies. -/
def arrive (req : Request) (remote : IpAddr) : List Proxy → Request
  | [] => { req with peer := some remote }
  | proxy :: proxies => arrive (proxy.forward remote req) proxy.addr proxies

/-- The addresses that the proxies have seen, in their order. -/
def remotes (remote : IpAddr) : List Proxy → List IpAddr
  | [] => []
  | proxy :: proxies => remote :: remotes proxy.addr proxies

/-- A proxy that writes addresses as this service does. -/
def proxyAt (addr : IpAddr) : Proxy where
  addr := addr
  write := display
  setsRealIp := true
  reads := parse_display
  plain := isAddrChar_display

/-! ## What the proxies leave in the headers -/

theorem toStr_append (v w : HeaderValue) :
    HeaderValue.toStr (v ++ w) = v.toStr.bind fun a => w.toStr.map fun b => a ++ b := by
  simp only [HeaderValue.toStr, List.all_append, List.map_append]
  by_cases first : v.all isVisibleAscii
  · by_cases second : w.all isVisibleAscii
    · simp [first, second]
    · simp [first, second]
  · simp [first]

theorem tokens_append (s t : String) : tokens (s ++ "," ++ t) = tokens s ++ tokens t := by
  have cut : (s ++ "," ++ t).toList = s.toList ++ ',' :: t.toList := by simp
  rw [tokens, cut, List.splitOn_append_cons_self, List.map_append, List.filter_append]
  rfl

theorem visible_addrChar {c : Char} (plain : IsAddrChar c) :
    (32 ≤ c.toNat ∧ c.toNat < 127) ∧ isBlankChar c = false ∧ c ≠ ',' := by
  have range : 46 ≤ c.toNat ∧ c.toNat < 127 := by
    rcases plain with alnum | rfl | rfl
    · have := Digits.alphanum_range alnum
      omega
    · decide
    · decide
  refine ⟨by omega, ?_, ?_⟩
  · have value : c.val.toNat = c.toNat := rfl
    simp only [isBlankChar, Bool.or_eq_false_iff, Bool.and_eq_false_iff, decide_eq_false_iff_not,
      UInt32.le_iff_toNat_le, ← UInt32.toNat_inj, value, UInt32.reduceToNat]
    omega
  · rintro rfl
    exact absurd range.1 (by decide)

/-- An address that a proxy has written is one visible token. -/
theorem Proxy.written (proxy : Proxy) (ip : IpAddr) :
    IsVisible (proxy.write ip) ∧ trim (proxy.write ip) = proxy.write ip ∧
      tokens (proxy.write ip) = [proxy.write ip] ∧
      tokens (" " ++ proxy.write ip) = [proxy.write ip] := by
  have chars := fun c listed => visible_addrChar (proxy.plain ip c listed)
  have trimmed : trim (proxy.write ip) = proxy.write ip := trim_eq_self fun c listed =>
    (chars c listed).2.1
  have some_ : proxy.write ip ≠ "" := by
    intro empty
    have read := proxy.reads ip
    rw [empty] at read
    exact nomatch (show none = some ip from read)
  have noComma : ',' ∉ (proxy.write ip).toList := fun listed => (chars ',' listed).2.2 rfl
  refine ⟨fun c listed => .inl (chars c listed).1, trimmed, ?_, ?_⟩
  · rw [tokens, List.splitOn_eq_singleton noComma]
    simp [trimmed, some_]
  · have spaced : (" " ++ proxy.write ip).toList = ' ' :: (proxy.write ip).toList := by simp
    have blank : trim (" " ++ proxy.write ip) = proxy.write ip := by
      refine Eq.trans (String.toList_inj.mp ?_) trimmed
      rw [toList_trim, toList_trim, spaced]
      rfl
    rw [tokens, spaced, List.splitOn_eq_singleton (by simpa using noComma)]
    rw [← spaced, List.map_singleton, String.ofList_toList, blank]
    simp [some_]

/-- What both loops do with the tokens: the addresses come in their order, and a
token that is an address adds it. -/
structure Addresses (loop : List String → Option (List IpAddr)) : Prop where
  nil : loop [] = some []
  snoc : ∀ tokens token ip, parse token = some ip →
    loop (tokens ++ [token]) = (loop tokens).map fun ips => ips ++ [ip]

theorem addresses_users : Addresses Users.addresses where
  nil := rfl
  snoc tokens token ip read := by simp [Users.addresses, read]

theorem addresses_accounts : Addresses Accounts.addresses where
  nil := rfl
  snoc tokens token ip read := by
    rw [Accounts.addresses, List.mapM_append, List.mapM_cons, List.mapM_nil, read,
      Accounts.addresses]
    cases List.mapM parse tokens <;> rfl

/-- The addresses that a loop finds in the header, none in a missing one. -/
def hops (loop : List String → Option (List IpAddr)) (forwardedFor : Option HeaderValue) :
    Option (List IpAddr) :=
  match forwardedFor with
  | none => some []
  | some value => value.toStr.bind fun text => loop (tokens text)

theorem parseForwardedFor_eq (loop : List String → Option (List IpAddr)) (req : Request) :
    parseForwardedFor loop req =
      (hops loop req.forwardedFor).bind fun ips => if ips = [] then none else some ips := by
  cases present : req.forwardedFor with
  | none => simp [parseForwardedFor, hops, present]
  | some value =>
    cases text : value.toStr with
    | none => simp [parseForwardedFor, hops, present, text]
    | some text => simp [parseForwardedFor, hops, present, text]

theorem hops_forward {loop : List String → Option (List IpAddr)} (addresses : Addresses loop)
    (proxy : Proxy) (remote : IpAddr) (req : Request) :
    hops loop (proxy.forward remote req).forwardedFor =
      (hops loop req.forwardedFor).map fun ips => ips ++ [remote] := by
  obtain ⟨visible, -, alone, spaced⟩ := proxy.written remote
  have snoc := addresses.snoc
  cases present : req.forwardedFor with
  | none =>
    have read := snoc [] (proxy.write remote) remote (proxy.reads remote)
    rw [List.nil_append, addresses.nil] at read
    simp [hops, Proxy.forward, present, toStr_headerOf, visible, alone, read]
  | some value =>
    have separated : IsVisible (", " ++ proxy.write remote) := by
      intro c listed
      rw [String.toList_append] at listed
      rcases List.mem_append.mp listed with first | later
      · have both : c = ',' ∨ c = ' ' := by simpa using first
        rcases both with rfl | rfl
        · exact .inl (by decide)
        · exact .inl (by decide)
      · exact visible c later
    cases text : value.toStr with
    | none => simp [hops, Proxy.forward, present, toStr_append, text]
    | some text_ =>
      have cut : text_ ++ (", " ++ proxy.write remote) =
          text_ ++ "," ++ (" " ++ proxy.write remote) := by
        apply String.toList_inj.mp
        simp
      simp only [hops, Proxy.forward, present, toStr_append, text, toStr_headerOf, separated,
        if_true, Option.bind_some, Option.map_some]
      rw [cut, tokens_append, spaced, snoc _ _ remote (proxy.reads remote)]

theorem hops_arrive {loop : List String → Option (List IpAddr)} (addresses : Addresses loop)
    (req : Request) (remote : IpAddr) (chain : List Proxy) :
    hops loop (arrive req remote chain).forwardedFor =
      (hops loop req.forwardedFor).map fun ips => ips ++ remotes remote chain := by
  induction chain generalizing req remote with
  | nil => simp [arrive, remotes]
  | cons proxy chain ih =>
    rw [arrive, ih, hops_forward addresses, Option.map_map, remotes]
    congr 1
    funext ips
    simp

/-- The request comes from the last proxy, which names in `X-Real-IP` the address
it has seen: the client, or the proxy before it. -/
theorem arrive_last (req : Request) (client : IpAddr) (chain : List Proxy) (last : Proxy)
    (names : last.setsRealIp = true) :
    (arrive req client (chain ++ [last])).peer = some last.addr ∧
      (arrive req client (chain ++ [last])).realIp =
        some (headerOf (last.write
          ((client :: chain.map Proxy.addr).getLast (List.cons_ne_nil _ _)))) := by
  induction chain generalizing req client with
  | nil => simp [arrive, Proxy.forward, names]
  | cons proxy chain ih =>
    obtain ⟨peer, realIp⟩ := ih (proxy.forward client req) proxy.addr
    refine ⟨peer, ?_⟩
    rw [List.cons_append, arrive, realIp]
    simp

theorem remotes_last (client : IpAddr) (chain : List Proxy) (last : Proxy) :
    remotes client (chain ++ [last]) = client :: chain.map Proxy.addr := by
  induction chain generalizing client with
  | nil => rfl
  | cons proxy chain ih => rw [List.cons_append, remotes, ih, List.map_cons]

/-! ## The key -/

theorem extractRealIp_written (proxy : Proxy) {req : Request} {ip : IpAddr}
    (present : req.realIp = some (headerOf (proxy.write ip))) :
    extractRealIp req = some (display ip) := by
  obtain ⟨visible, trimmed, alone, -⟩ := proxy.written ip
  have some_ : proxy.write ip ≠ "" := by
    intro empty
    rw [empty] at alone
    exact absurd alone (by decide +kernel)
  simp [extractRealIp, present, toStr_headerOf, visible, trimmed, some_, proxy.reads]

/-- The last address that is not trusted is the client, since the proxies behind
it are. -/
theorem find_client {trusted : List IpAddr} {before inner : List IpAddr} {client : IpAddr}
    (outside : client ∉ trusted) (inside : ∀ ip ∈ inner, ip ∈ trusted) :
    ((before ++ client :: inner).reverse.find? fun ip => ip ∉ trusted) = some client := by
  rw [List.reverse_append, List.reverse_cons, List.append_assoc, List.find?_append,
    List.find?_eq_none.mpr, Option.none_or]
  · simp [outside]
  · intro ip listed
    simpa using inside ip (List.mem_reverse.mp listed)

/-- Through trusted proxies the key is the client exactly where there is one
proxy only, or the header that the client has sent can be read. -/
theorem extractClientKey_arrive {loop : List String → Option (List IpAddr)}
    (addresses : Addresses loop) (trustedProxyEnv : Option String) (req : Request) (client : IpAddr)
    (chain : List Proxy) (last : Proxy) (outside : client ∉ trustedProxyIps trustedProxyEnv)
    (trusted : ∀ proxy ∈ chain ++ [last], proxy.addr ∈ trustedProxyIps trustedProxyEnv)
    (names : last.setsRealIp = true) :
    extractClientKey loop (arrive req client (chain ++ [last])) trustedProxyEnv = display client ↔
      chain = [] ∨ (hops loop req.forwardedFor).isSome := by
  obtain ⟨peer, realIp⟩ := arrive_last req client chain last names
  have peerTrusted := trusted last (List.mem_append_right _ (List.mem_singleton_self _))
  have inner : ∀ ip ∈ chain.map Proxy.addr, ip ∈ trustedProxyIps trustedProxyEnv := by
    intro ip listed
    obtain ⟨proxy, there, rfl⟩ := List.mem_map.mp listed
    exact trusted proxy (List.mem_append_left _ there)
  have real := extractRealIp_written last realIp
  have forwarded := parseForwardedFor_eq loop (arrive req client (chain ++ [last]))
  rw [hops_arrive addresses, remotes_last] at forwarded
  simp only [extractClientKey, peer, peerTrusted, if_true, extractForwardedIp, real, forwarded,
    Option.getD_some]
  cases readable : hops loop req.forwardedFor with
  | none =>
    simp only [Option.map_none, Option.bind_none, Option.isSome_none, Bool.false_eq_true, or_false]
    constructor
    · intro same
      have client_ := display_injective same
      cases chain with
      | nil => rfl
      | cons proxy chain =>
        -- the address named is one of the proxies, which are trusted
        have named : client ∈ (proxy :: chain).map Proxy.addr := by
          rw [← client_, List.map_cons, List.getLast_cons (List.cons_ne_nil _ _)]
          exact List.getLast_mem _
        exact absurd (inner client named) outside
    · rintro rfl
      rfl
  | some before =>
    have some_ : before ++ client :: chain.map Proxy.addr ≠ [] := by simp
    have lastHop : (before ++ client :: chain.map Proxy.addr).getLast? =
        some ((client :: chain.map Proxy.addr).getLast (List.cons_ne_nil _ _)) := by
      rw [List.getLast?_append, List.getLast?_eq_some_getLast (List.cons_ne_nil _ _),
        Option.some_or]
    simp only [Option.map_some, Option.bind_some, if_neg some_, lastHop, Option.isSome_some,
      or_true, iff_true, bind]
    rw [find_client outside inner, Option.map_some]
    cases chain with
    | nil =>
      -- the header ends with the client, so the real address stands for it
      have apart : client ≠ last.addr := fun same => outside (same ▸ peerTrusted)
      simp [outside, apart]
    | cons proxy chain =>
      have hop : (client :: (proxy :: chain).map Proxy.addr).getLast (List.cons_ne_nil _ _) ∈
          trustedProxyIps trustedProxyEnv := by
        refine inner _ ?_
        rw [List.map_cons, List.getLast_cons (List.cons_ne_nil _ _)]
        exact List.getLast_mem _
      simp only [hop, not_true_eq_false, and_false, if_false]

theorem readable_users (forwardedFor : Option HeaderValue) :
    (hops Users.addresses forwardedFor).isSome ↔
      ∀ value, forwardedFor = some value → value.toStr.isSome := by
  cases forwardedFor with
  | none => simp [hops]
  | some value => cases text : value.toStr <;> simp [hops, Users.addresses, text]

theorem readable_accounts (forwardedFor : Option HeaderValue) :
    (hops Accounts.addresses forwardedFor).isSome ↔
      ∀ value, forwardedFor = some value →
        ∃ text, value.toStr = some text ∧ ∀ token ∈ tokens text, (parse token).isSome := by
  have all : ∀ tokens : List String, (Accounts.addresses tokens).isSome ↔
      ∀ token ∈ tokens, (parse token).isSome := by
    intro tokens
    induction tokens with
    | nil => simp [Accounts.addresses]
    | cons token tokens ih =>
      rw [Accounts.addresses] at ih ⊢
      rw [List.mapM_cons, List.forall_mem_cons, ← ih]
      cases parse token with
      | none => simp
      | some ip => cases List.mapM parse tokens <;> simp
  cases forwardedFor with
  | none => simp [hops]
  | some value => cases text : value.toStr <;> simp [hops, text, all]

/-- A request through a chain of trusted proxies is counted for the client in both
services exactly when the chain is one proxy long or the client has sent a header
that can be read: visible text, and for the accounts service nothing but addresses
between its commas. One from another peer is counted for this peer. -/
theorem extractClientKey_iff (trustedProxyEnv : Option String) :
    (∀ req client chain last, client ∉ trustedProxyIps trustedProxyEnv →
      (∀ proxy ∈ chain ++ [last], proxy.addr ∈ trustedProxyIps trustedProxyEnv) →
      last.setsRealIp = true →
      (Users.extractClientKey (arrive req client (chain ++ [last])) trustedProxyEnv =
          display client ↔
        chain = [] ∨ ∀ value, req.forwardedFor = some value → value.toStr.isSome) ∧
      (Accounts.extractClientKey (arrive req client (chain ++ [last])) trustedProxyEnv =
          display client ↔
        chain = [] ∨ ∀ value, req.forwardedFor = some value →
          ∃ text, value.toStr = some text ∧ ∀ token ∈ tokens text, (parse token).isSome)) ∧
    ∀ req peer, req.peer = some peer → peer ∉ trustedProxyIps trustedProxyEnv →
      Users.extractClientKey req trustedProxyEnv = display peer ∧
        Accounts.extractClientKey req trustedProxyEnv = display peer := by
  constructor
  · intro req client chain last outside trusted names
    rw [← readable_users, ← readable_accounts]
    exact ⟨extractClientKey_arrive addresses_users trustedProxyEnv req client chain last outside
        trusted names,
      extractClientKey_arrive addresses_accounts trustedProxyEnv req client chain last outside
        trusted names⟩
  · intro req peer known outside
    simp [Users.extractClientKey, Accounts.extractClientKey, extractClientKey, known, outside]

/-- Two proxies behind which a client names an address of its own, and a peer that
is no proxy. -/
theorem extractClientKey_iff_chain :
    Users.extractClientKey (arrive ⟨none, some (headerOf "192.0.2.1"), none⟩
        (.v4 ⟨203, 0, 113, 7⟩) [proxyAt (.v4 ⟨10, 0, 0, 1⟩), proxyAt (.v4 ⟨10, 0, 0, 2⟩)])
          (some "10.0.0.1,10.0.0.2") = display (.v4 ⟨203, 0, 113, 7⟩) ∧
      Accounts.extractClientKey (arrive ⟨none, some (headerOf "x"), none⟩
        (.v4 ⟨203, 0, 113, 7⟩) [proxyAt (.v4 ⟨10, 0, 0, 2⟩)])
          (some "10.0.0.1,10.0.0.2") = display (.v4 ⟨203, 0, 113, 7⟩) ∧
      Users.extractClientKey ⟨some (.v4 ⟨203, 0, 113, 7⟩), some (headerOf "192.0.2.1"), none⟩
          (some "10.0.0.1,10.0.0.2") = display (.v4 ⟨203, 0, 113, 7⟩) := by
  have spec := extractClientKey_iff (some "10.0.0.1,10.0.0.2")
  have outside : .v4 ⟨203, 0, 113, 7⟩ ∉ trustedProxyIps (some "10.0.0.1,10.0.0.2") := by
    decide +kernel
  have sent : (headerOf "192.0.2.1").toStr.isSome := by decide +kernel
  refine ⟨?_, ?_, (spec.2 _ _ rfl outside).1⟩
  · refine (spec.1 _ _ [proxyAt (.v4 ⟨10, 0, 0, 1⟩)] (proxyAt (.v4 ⟨10, 0, 0, 2⟩)) outside
      (by decide +kernel) rfl).1.mpr (.inr ?_)
    rintro value same
    cases Option.some.inj same
    exact sent
  · exact (spec.1 _ _ [] (proxyAt (.v4 ⟨10, 0, 0, 2⟩)) outside (by decide +kernel) rfl).2.mpr
      (.inl rfl)

/-- Behind two trusted proxies a client that sends `X-Forwarded-For: x` is counted
for the first proxy by the accounts service, and one that sends a byte which is
not visible by the users service. -/
theorem forwarded_for_chooses_key :
    let client : IpAddr := .v4 ⟨203, 0, 113, 7⟩
    let chain := [proxyAt (.v4 ⟨10, 0, 0, 1⟩), proxyAt (.v4 ⟨10, 0, 0, 2⟩)]
    let env := some "10.0.0.1,10.0.0.2"
    client ∉ trustedProxyIps env ∧ (∀ proxy ∈ chain, proxy.addr ∈ trustedProxyIps env) ∧
      Accounts.extractClientKey (arrive ⟨none, some (headerOf "x"), none⟩ client chain) env =
        "10.0.0.1" ∧
      Users.extractClientKey (arrive ⟨none, some [0xE9], none⟩ client chain) env = "10.0.0.1" ∧
      display client = "203.0.113.7" := by
  decide +kernel

end RailsCore.ClientKeys
