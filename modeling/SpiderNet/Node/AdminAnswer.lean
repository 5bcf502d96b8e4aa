import SpiderNet.Node.DaemonConfig

namespace SpiderNet.Node
open Exit

-- 0200::/7
def isOverlay (ip : Ipv6Addr) : Bool := ip.lead &&& 0xfe00 = 0x0200

def isWildcard : IpAddr → Bool
  | .v4 addr => addr.isUnspecified
  | .v6 addr => addr.isUnspecified

-- private, link-local and unique-local addresses
def isLan : IpAddr → Bool
  | .v4 addr => addr.isPrivate || addr.isLinkLocal
  | .v6 addr => addr.lead &&& 0xffc0 = 0xfe80 || addr.lead &&& 0xfe00 = 0xfc00

structure OverlayOnly (ip : IpAddr) : Prop where
  overlay : ∃ addr, ip = .v6 addr ∧ isOverlay addr
  notWildcard : isWildcard ip = false
  notLoopback : ip.isLoopback = false
  notLan : isLan ip = false
  notPublic : isPublicOrigin ip = false

theorem masked {segment mask value : UInt16} (h : segment &&& mask = value)
    (hmask : mask &&& 0xfe00 = 0xfe00) : segment &&& 0xfe00 = value &&& 0xfe00 := by
  rw [← h, UInt16.and_assoc, hmask]

theorem overlayOnly_iff (addr : Ipv6Addr) : OverlayOnly (.v6 addr) ↔ isOverlay addr := by
  constructor
  · rintro ⟨⟨addr', heq, hoverlay⟩, _⟩
    cases heq
    exact hoverlay
  · intro hoverlay
    have hrange : addr.lead &&& 0xfe00 = 0x0200 := by simpa [isOverlay] using hoverlay
    refine ⟨⟨addr, rfl, hoverlay⟩, ?_, ?_, ?_, ?_⟩
    · rw [isWildcard, Ipv6Addr.isUnspecified, decide_eq_false_iff_not]
      rintro rfl
      cases hoverlay
    · rw [IpAddr.isLoopback, Ipv6Addr.isLoopback, decide_eq_false_iff_not]
      rintro rfl
      cases hoverlay
    · have hlink : addr.lead &&& 0xffc0 ≠ 0xfe80 := by
        intro hlink
        have hclash := (masked hlink (by decide)).symm.trans hrange
        exact absurd hclash (by decide)
      have hunique : addr.lead &&& 0xfe00 ≠ 0xfc00 := by
        rw [hrange]
        decide
      simp [isLan, hlink, hunique]
    · have hlead : addr.segments[0] &&& 0xfe00 = 0x0200 := hrange
      simp [isPublicOrigin, hlead]

def NamesOverlay (address : Text) : Prop := ∃ ip, parseIpv6Addr address = some ip ∧ isOverlay ip

structure SelfLaw (response : Json) (info : SelfInfo) : Prop where
  oneRecord : ∃ record, response = .obj [record]
  inRange : isOverlay info.address.inner
  binds : ∀ port, OverlayOnly ((ExitBind.overlay port).resolve info.address).ip

def OneOverlayRecord (response : Json) : Prop :=
  ∃ address record, response = .obj [(address, record)] ∧ NamesOverlay address

theorem asObject_eq_some {json : Json} {fields : List (Text × Json)}
    (h : json.asObject = some fields) : json = .obj fields := by
  cases json with
  | obj fields' => exact congrArg Json.obj (Option.some.inj h)
  | _ => cases h

theorem fromResponse_ok {response : Json} {info : SelfInfo}
    (h : SelfInfo.fromResponse response = .ok info) : ∃ address record rest,
      response = .obj ((address, record) :: rest) ∧
      parseIpv6Addr address = some info.address.inner := by
  rw [SelfInfo.fromResponse] at h
  cases hobject : response.asObject with
  | none => simp [hobject] at h
  | some fields =>
    have hresponse := asObject_eq_some hobject
    cases fields with
    | nil => simp [hobject] at h
    | cons field rest =>
      obtain ⟨address, record⟩ := field
      simp only [hobject] at h
      cases haddr : parseIpv6Addr address with
      | none => simp [haddr] at h
      | some addr =>
        simp only [haddr] at h
        cases hkey : record.getStr "key".toList with
        | none =>
          rw [hkey] at h
          cases h
        | some key =>
          simp only [hkey, Except.ok.injEq] at h
          subst h
          exact ⟨address, record, rest, hresponse, haddr⟩

theorem selfLaw_iff {response : Json} {info : SelfInfo}
    (h : SelfInfo.fromResponse response = .ok info) :
    SelfLaw response info ↔ OneOverlayRecord response := by
  obtain ⟨address, record, rest, rfl, haddr⟩ := fromResponse_ok h
  constructor
  · rintro ⟨⟨field, heq⟩, hrange, _⟩
    obtain ⟨_, rfl⟩ := List.cons.inj (Json.obj.inj heq)
    exact ⟨address, record, rfl, info.address.inner, haddr, hrange⟩
  · rintro ⟨address', record', heq, ip, hip, hrange⟩
    obtain ⟨hfield, rfl⟩ := List.cons.inj (Json.obj.inj heq)
    obtain ⟨rfl, rfl⟩ := Prod.ext_iff.mp hfield
    obtain rfl := Option.some.inj (hip.symm.trans haddr)
    exact ⟨⟨_, rfl⟩, hrange, fun port => (overlayOnly_iff _).mpr hrange⟩

def PeersLaw (peers : List PeerInfo) : Prop := ∀ peer ∈ peers, isOverlay peer.address.inner

def OverlayRecords (response : Json) : Prop :=
  ∃ fields, response = .obj fields ∧ ∀ field ∈ fields, NamesOverlay field.1

theorem peersFrom_ok {fields : List (Text × Json)} {peers : List PeerInfo}
    (h : peersFrom fields = .ok peers) : PeersLaw peers ↔ ∀ field ∈ fields, NamesOverlay field.1 := by
  induction fields generalizing peers with
  | nil =>
    obtain rfl : [] = peers := by simpa [peersFrom] using h
    exact iff_of_true nofun nofun
  | cons field rest ih =>
    obtain ⟨address, record⟩ := field
    rw [peersFrom] at h
    cases haddr : parseIpv6Addr address with
    | none => simp [haddr] at h
    | some addr =>
      simp only [haddr] at h
      obtain ⟨later, hlater, heq⟩ := bind_eq_ok.mp h
      obtain rfl := Except.ok.inj heq
      have hnames : NamesOverlay address ↔ isOverlay addr := by
        simp [NamesOverlay, haddr]
      rw [PeersLaw, List.forall_mem_cons, List.forall_mem_cons, hnames, ← ih hlater]
      rfl

theorem peersLaw_iff {response : Json} {peers : List PeerInfo}
    (h : peersFromResponse response = .ok peers) : PeersLaw peers ↔ OverlayRecords response := by
  rw [peersFromResponse] at h
  cases hobject : response.asObject with
  | none => simp [hobject] at h
  | some fields =>
    obtain rfl := asObject_eq_some hobject
    simp only [hobject] at h
    rw [peersFrom_ok h]
    constructor
    · exact fun hall => ⟨fields, rfl, hall⟩
    · rintro ⟨fields', heq, hall⟩
      exact Json.obj.inj heq ▸ hall

theorem admin_addresses_iff (response : Json) :
    (∀ info, SelfInfo.fromResponse response = .ok info →
      (SelfLaw response info ↔ OneOverlayRecord response)) ∧
    ∀ peers, peersFromResponse response = .ok peers → (PeersLaw peers ↔ OverlayRecords response) :=
  ⟨fun _ => selfLaw_iff, fun _ => peersLaw_iff⟩

def sampleRecord : Json := .obj [("key".toList, .str "00ff".toList)]

def overlayResponse : Json := .obj [("200:1234::1".toList, sampleRecord)]

theorem overlayResponse_names : NamesOverlay "200:1234::1".toList :=
  ⟨⟨#v[0x200, 0x1234, 0, 0, 0, 0, 0, 1]⟩, by decide, by decide⟩

theorem admin_addresses_iff_overlayResponse :
    (∃ info, SelfLaw overlayResponse info) ∧ ∃ peers, peers ≠ [] ∧ PeersLaw peers :=
  ⟨⟨_, ((admin_addresses_iff overlayResponse).1 _ rfl).mpr ⟨_, _, rfl, overlayResponse_names⟩⟩,
    ⟨_, List.cons_ne_nil _ _, ((admin_addresses_iff overlayResponse).2 _ rfl).mpr
      ⟨_, rfl, fun _ hfield => List.mem_singleton.mp hfield ▸ overlayResponse_names⟩⟩⟩

-- a record keyed by the wildcard address, and two records of which the second is ignored
theorem fromResponse_wildcard : ∃ info other,
    SelfInfo.fromResponse (.obj [("::".toList, sampleRecord)]) = .ok info ∧
    (ExitBind.overlay 8080).resolve info.address = ⟨.v6 ⟨#v[0, 0, 0, 0, 0, 0, 0, 0]⟩, 8080⟩ ∧
    SelfInfo.fromResponse (.obj [("200:1234::1".toList, sampleRecord),
      ("200:1234::2".toList, sampleRecord)]) = .ok other ∧
    ∃ peers, peersFromResponse (.obj [("::".toList, sampleRecord)]) = .ok peers ∧ ¬PeersLaw peers := by
  refine ⟨_, _, rfl, by decide, rfl, _, rfl, fun hlaw => ?_⟩
  have hrange := hlaw _ List.mem_cons_self
  revert hrange
  decide

end SpiderNet.Node
