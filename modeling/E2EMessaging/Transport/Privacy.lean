/-
  TOR, OR NOTHING (`core/transport/src/privacy.rs`, and `build_swarm_with_privacy` of `core/transport/src/lib.rs`).

  With `tor_enabled`, a swarm is built only after the proxy has accepted a connection, over a transport that dials
  through that proxy and does not listen.  What a process with such swarms does on the network is recorded here: a
  CONTACT is a connection it opens, or an address it listens on.

  `tor_fails_closed`: in every run, with any configurations, and a proxy that comes and goes, each swarm makes only the
  contacts its own configuration permits.  With Tor these are the proxy, and peers named to the proxy; a swarm whose
  proxy was not there has not been built and makes no contact at all.  Without Tor the proxy is never contacted.

  The clearnet swarm of libp2p is a transport that dials what it is told to; what `SocketAddr` parses is a parameter.
-/
import E2EMessaging.Lib.Run

namespace E2EMessaging.Transport.Privacy

open E2EMessaging.Lib

/-! ## The program -/

/-- `TransportPrivacyConfig`. -/
structure TransportPrivacyConfig where
  torEnabled : Bool
  torSocksAddr : String
  deriving Repr, DecidableEq

/-- `DEFAULT_TOR_SOCKS_ADDR`. -/
def defaultTorSocksAddr : String := "127.0.0.1:9050"

/-- `TransportPrivacyConfig::default()`. -/
def TransportPrivacyConfig.default : TransportPrivacyConfig := ⟨false, defaultTorSocksAddr⟩

/-- `TorUnavailable`. -/
inductive TorUnavailable where
  | invalidProxyAddress (addr : String)
  | proxyUnreachable (addr : String)
  deriving Repr, DecidableEq

/-- A part of a `Multiaddr`; addresses, hosts and ports as they are displayed. -/
inductive MultiaddrPart where
  | ip4 (ip : String)
  | ip6 (ip : String)
  | dns (host : String)
  | dns4 (host : String)
  | dns6 (host : String)
  | tcp (port : String)
  | other (name : String)
  deriving Repr, DecidableEq

/-- `Multiaddr`. -/
abbrev Multiaddr := List MultiaddrPart

/-- `multiaddr_to_tcp_target`.  What follows the port is not looked at. -/
def multiaddrToTcpTarget : Multiaddr → Option String
  | .ip4 ip :: .tcp port :: _ => some (ip ++ ":" ++ port)
  | .ip6 ip :: .tcp port :: _ => some ("[" ++ ip ++ "]:" ++ port)
  | .dns host :: .tcp port :: _ => some (host ++ ":" ++ port)
  | .dns4 host :: .tcp port :: _ => some (host ++ ":" ++ port)
  | .dns6 host :: .tcp port :: _ => some (host ++ ":" ++ port)
  | _ => none

/-- What a process does on the network. -/
inductive Contact (SocketAddr : Type) where
  /-- `TcpStream::connect_timeout`. -/
  | connect (addr : SocketAddr)
  /-- `Socks5Stream::connect`: a connection to the proxy, and a target named to it. -/
  | socks (proxy target : String)
  /-- A clearnet dial. -/
  | dial (addr : Multiaddr)
  | listen (addr : Multiaddr)
  deriving Repr, DecidableEq

variable {SocketAddr : Type}

/-- `verify_tor_available`, and the contacts it makes; `accepts` says whether the address accepts a connection in
    time. -/
def verifyTorAvailable (parse : String → Option SocketAddr) (config : TransportPrivacyConfig) (accepts : Bool) :
    Except TorUnavailable Unit × List (Contact SocketAddr) :=
  if ¬ config.torEnabled then (.ok (), [])
  else
    match parse config.torSocksAddr with
    | none => (.error (.invalidProxyAddress config.torSocksAddr), [])
    | some addr =>
      (if accepts then .ok () else .error (.proxyUnreachable config.torSocksAddr), [.connect addr])

/-- A `Swarm`, by its transport. -/
inductive Swarm where
  /-- TCP and QUIC. -/
  | clearnet
  /-- `Socks5TcpTransport`. -/
  | socks5 (proxyAddr : String)
  deriving Repr, DecidableEq

/-- Why there is no swarm. -/
inductive BuildError where
  | tor (e : TorUnavailable)
  /-- The Noise configuration, or another part of the builder, has failed. -/
  | builder
  deriving Repr, DecidableEq

/-- What happens outside while a swarm is built. -/
structure Surroundings where
  accepts : Bool
  /-- The builder succeeds. -/
  builds : Bool
  deriving Repr, DecidableEq

/-- `build_swarm`. -/
def buildSwarm (env : Surroundings) : Except BuildError Swarm := if env.builds then .ok .clearnet else .error .builder

/-- `build_swarm_with_privacy`. -/
def buildSwarmWithPrivacy (parse : String → Option SocketAddr) (privacy : TransportPrivacyConfig)
    (env : Surroundings) : Except BuildError Swarm × List (Contact SocketAddr) :=
  if ¬ privacy.torEnabled then (buildSwarm env, [])
  else
    match verifyTorAvailable parse privacy env.accepts with
    | (.error e, contacts) => (.error (.tor e), contacts)
    | (.ok (), contacts) => (if env.builds then .ok (.socks5 privacy.torSocksAddr) else .error .builder, contacts)

/-- `dial`: none, if the address is not supported. -/
def Swarm.dial (swarm : Swarm) (addr : Multiaddr) : Option (Contact SocketAddr) :=
  match swarm with
  | .clearnet => some (.dial addr)
  | .socks5 proxyAddr => (multiaddrToTcpTarget addr).map fun target => .socks proxyAddr target

/-- `listen_on`.  The proxy transport supports no address. -/
def Swarm.listenOn (swarm : Swarm) (addr : Multiaddr) : Option (Contact SocketAddr) :=
  match swarm with
  | .clearnet => some (.listen addr)
  | .socks5 _ => none

/-! ## A process -/

/-- A call of `build_swarm_with_privacy`. -/
structure Build where
  privacy : TransportPrivacyConfig
  env : Surroundings
  result : Except BuildError Swarm
  deriving Repr

/-- The swarms a process has asked for, and its contacts, each with the build it belongs to. -/
structure Process (SocketAddr : Type) where
  builds : List Build
  contacts : List (Nat × Contact SocketAddr)

/-- What the process does. -/
inductive ProcessAction where
  | build (privacy : TransportPrivacyConfig) (env : Surroundings)
  | dial (build : Nat) (addr : Multiaddr)
  | listenOn (build : Nat) (addr : Multiaddr)
  deriving Repr, DecidableEq

namespace Process

/-- A contact made through a build's swarm, if it has one. -/
def through (s : Process SocketAddr) (k : Nat) (f : Swarm → Option (Contact SocketAddr)) : Process SocketAddr :=
  match s.builds[k]? with
  | none => s
  | some b =>
    match b.result with
    | .error _ => s
    | .ok swarm => { s with contacts := s.contacts ++ (f swarm).toList.map (Prod.mk k) }

def step (parse : String → Option SocketAddr) (s : Process SocketAddr) : ProcessAction → Process SocketAddr
  | .build privacy env =>
    { builds := s.builds ++ [⟨privacy, env, (buildSwarmWithPrivacy parse privacy env).1⟩]
      contacts := s.contacts ++ (buildSwarmWithPrivacy parse privacy env).2.map (Prod.mk s.builds.length) }
  | .dial k addr => s.through k fun swarm => swarm.dial addr
  | .listenOn k addr => s.through k fun swarm => swarm.listenOn addr

end Process

/-! ## What should hold -/

/-- The contacts a build may make. -/
def Build.Permits (parse : String → Option SocketAddr) (b : Build) : Contact SocketAddr → Prop
  | .connect addr => b.privacy.torEnabled = true ∧ parse b.privacy.torSocksAddr = some addr
  | .socks proxy target =>
    b.privacy.torEnabled = true ∧ proxy = b.privacy.torSocksAddr ∧ b.result = .ok (.socks5 proxy) ∧
      ∃ addr, multiaddrToTcpTarget addr = some target
  | .dial _ | .listen _ => b.privacy.torEnabled = false ∧ b.result = .ok .clearnet

/-- What is asked of a process. -/
structure Closed (parse : String → Option SocketAddr) (s : Process SocketAddr) : Prop where
  /-- Each contact is one its build permits. -/
  contacts : ∀ c ∈ s.contacts, ∃ b, s.builds[c.1]? = some b ∧ b.Permits parse c.2
  /-- A swarm is of the kind asked for; with Tor, its proxy has accepted a connection. -/
  swarms : ∀ (k : Nat) (b : Build) (swarm : Swarm), s.builds[k]? = some b → b.result = .ok swarm →
    (b.privacy.torEnabled = false ∧ swarm = .clearnet) ∨
      (b.privacy.torEnabled = true ∧ swarm = .socks5 b.privacy.torSocksAddr ∧ b.env.accepts = true ∧
        ∃ addr, parse b.privacy.torSocksAddr = some addr ∧ (k, Contact.connect addr) ∈ s.contacts)

section Steps

variable {parse : String → Option SocketAddr} {s : Process SocketAddr}

/-- What a build contacts, and what it makes. -/
theorem buildSwarmWithPrivacy_cases (parse : String → Option SocketAddr) (privacy : TransportPrivacyConfig)
    (env : Surroundings) :
    (∀ c ∈ (buildSwarmWithPrivacy parse privacy env).2, privacy.torEnabled = true ∧
      ∃ addr, c = .connect addr ∧ parse privacy.torSocksAddr = some addr) ∧
    ∀ swarm, (buildSwarmWithPrivacy parse privacy env).1 = .ok swarm →
      (privacy.torEnabled = false ∧ swarm = .clearnet) ∨
        (privacy.torEnabled = true ∧ swarm = .socks5 privacy.torSocksAddr ∧ env.accepts = true ∧
          ∃ addr, parse privacy.torSocksAddr = some addr ∧
            .connect addr ∈ (buildSwarmWithPrivacy parse privacy env).2) := by
  rw [buildSwarmWithPrivacy, verifyTorAvailable]
  by_cases htor : privacy.torEnabled = true
  · rw [if_neg (not_not.mpr htor), if_neg (not_not.mpr htor)]
    cases hparse : parse privacy.torSocksAddr with
    | none => exact ⟨nofun, nofun⟩
    | some addr =>
      have hcontacts : ∀ c ∈ [Contact.connect addr], privacy.torEnabled = true ∧
          ∃ addr', c = .connect addr' ∧ some addr = some addr' := by
        intro c hc
        exact ⟨htor, addr, List.mem_singleton.mp hc, rfl⟩
      cases haccepts : env.accepts with
      | false => exact ⟨hcontacts, nofun⟩
      | true =>
        refine ⟨hcontacts, ?_⟩
        intro swarm hswarm
        cases hbuilds : env.builds with
        | false =>
          rw [hbuilds] at hswarm
          cases hswarm
        | true =>
          rw [hbuilds] at hswarm
          obtain rfl := Except.ok.inj hswarm
          exact .inr ⟨htor, rfl, rfl, addr, rfl, List.mem_singleton.mpr rfl⟩
  · rw [if_pos htor]
    refine ⟨nofun, ?_⟩
    intro swarm hswarm
    refine .inl ⟨Bool.not_eq_true _ ▸ htor, ?_⟩
    unfold buildSwarm at hswarm
    dsimp only at hswarm
    split at hswarm
    · exact (Except.ok.inj hswarm).symm
    · cases hswarm

/-- A contact made through a swarm of the kind asked for. -/
theorem Closed.through (hs : Closed parse s) (k : Nat) {f : Swarm → Option (Contact SocketAddr)}
    (hclearnet : ∀ c ∈ f .clearnet, ∀ b : Build, b.privacy.torEnabled = false → b.result = .ok .clearnet →
      b.Permits parse c)
    (hsocks : ∀ proxyAddr, ∀ c ∈ f (.socks5 proxyAddr), ∃ addr target, c = .socks proxyAddr target ∧
      multiaddrToTcpTarget addr = some target) : Closed parse (s.through k f) := by
  unfold Process.through
  split
  · exact hs
  · rename_i b hb
    split
    · exact hs
    · rename_i swarm hswarm
      constructor
      · intro c hc
        rcases List.mem_append.mp hc with hold | hnew
        · exact hs.contacts c hold
        · obtain ⟨d, hd, rfl⟩ := List.mem_map.mp hnew
          rw [Option.mem_toList] at hd
          refine ⟨b, hb, ?_⟩
          rcases hs.swarms k b swarm hb hswarm with ⟨hoff, rfl⟩ | ⟨htor, rfl, -⟩
          · exact hclearnet d hd b hoff hswarm
          · obtain ⟨addr, target, rfl, htarget⟩ := hsocks _ d hd
            exact ⟨htor, rfl, hswarm, addr, htarget⟩
      · intro j b' swarm' hb' hswarm'
        rcases hs.swarms j b' swarm' hb' hswarm' with hoff | ⟨htor, hsocks5, haccepts, addr, hparse, hmem⟩
        · exact .inl hoff
        · exact .inr ⟨htor, hsocks5, haccepts, addr, hparse, List.mem_append_left _ hmem⟩

/-- A build makes its own contacts, and leaves those of the others. -/
theorem Closed.build (hs : Closed parse s) (privacy : TransportPrivacyConfig) (env : Surroundings) :
    Closed parse (s.step parse (.build privacy env)) := by
  obtain ⟨hcontacts, hswarm⟩ := buildSwarmWithPrivacy_cases parse privacy env
  have hnew : (s.builds ++ [⟨privacy, env, (buildSwarmWithPrivacy parse privacy env).1⟩])[s.builds.length]? =
      some ⟨privacy, env, (buildSwarmWithPrivacy parse privacy env).1⟩ := List.getElem?_concat_length
  constructor
  · intro c hc
    rcases List.mem_append.mp hc with hold | hmade
    · obtain ⟨b, hb, hpermits⟩ := hs.contacts c hold
      refine ⟨b, ?_, hpermits⟩
      show (s.builds ++ [_])[c.1]? = some b
      rw [List.getElem?_append_left (List.getElem?_eq_some_iff.mp hb).1]
      exact hb
    · obtain ⟨d, hd, rfl⟩ := List.mem_map.mp hmade
      obtain ⟨htor, addr, rfl, hparse⟩ := hcontacts d hd
      exact ⟨_, hnew, htor, hparse⟩
  · intro k b swarm hb hresult
    by_cases hk : k < s.builds.length
    · have hold : s.builds[k]? = some b := by
        rw [← List.getElem?_append_left hk]
        exact hb
      rcases hs.swarms k b swarm hold hresult with hoff | ⟨htor, hsocks5, haccepts, addr, hparse, hmem⟩
      · exact .inl hoff
      · exact .inr ⟨htor, hsocks5, haccepts, addr, hparse, List.mem_append_left _ hmem⟩
    · have hlt := (List.getElem?_eq_some_iff.mp hb).1
      have hlength : (s.step parse (.build privacy env)).builds.length = s.builds.length + 1 := List.length_append
      obtain rfl : k = s.builds.length := by omega
      obtain rfl := Option.some.inj (hnew.symm.trans hb)
      rcases hswarm swarm hresult with hoff | ⟨htor, hsocks5, haccepts, addr, hparse, hmem⟩
      · exact .inl hoff
      · exact .inr ⟨htor, hsocks5, haccepts, addr, hparse,
          List.mem_append_right _ (List.mem_map.mpr ⟨_, hmem, rfl⟩)⟩

theorem Closed.step (hs : Closed parse s) (act : ProcessAction) : Closed parse (s.step parse act) := by
  cases act with
  | build privacy env => exact hs.build privacy env
  | dial k addr =>
    apply hs.through k
    · intro c hc b hoff hresult
      obtain rfl := Option.some.inj hc
      exact ⟨hoff, hresult⟩
    · intro proxyAddr c hc
      obtain ⟨target, htarget, rfl⟩ := Option.map_eq_some_iff.mp hc
      exact ⟨addr, target, rfl, htarget⟩
  | listenOn k addr =>
    apply hs.through k
    · intro c hc b hoff hresult
      obtain rfl := Option.some.inj hc
      exact ⟨hoff, hresult⟩
    · intro proxyAddr c hc
      cases hc

end Steps

/-- **Tor, or nothing.**  In every run of a process, whatever is configured, dialled or listened on, and whenever the
    proxy accepts connections: each contact is one that the configuration of its swarm permits, and a swarm for which
    Tor was asked dials through the proxy configured, which had accepted a connection. -/
theorem tor_fails_closed (parse : String → Option SocketAddr) (acts : List ProcessAction) :
    Closed parse (run (Process.step parse) ⟨[], []⟩ acts) := by
  apply run_inv (I := Closed parse) (fun _ act hs => hs.step act)
  constructor
  · intro c hc
    cases hc
  · intro k b swarm hb
    cases hb

end E2EMessaging.Transport.Privacy
