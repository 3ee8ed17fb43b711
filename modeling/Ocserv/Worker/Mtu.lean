import Ocserv.Basic

/-!
# The MTU of a tunnel

The link MTU is what a packet of the DTLS channel may have on the wire.  `connect_handler`
negotiates it and advertises the result to the client; afterwards it is changed by the
setter `link_mtu_set` alone, on behalf of the MTU discovery, of probes of the peer and of the
path MTUs that the kernel reports.
-/

namespace Ocserv

def CSTP_DTLS_OVERHEAD : UInt32 := 1
def IP_HEADER_SIZE : UInt32 := 20
def IPV6_HEADER_SIZE : UInt32 := 40
def UDP_HEADER_SIZE : UInt32 := 8

/-- The size of `ws->buffer`. -/
def BUFFER_SIZE : UInt32 := 16 * 1024

/-- `AF_INET` or `AF_INET6`. -/
inductive IpFamily
  | inet
  | inet6
deriving DecidableEq, Repr

def IpFamily.header_size : IpFamily → UInt32
  | .inet => IP_HEADER_SIZE
  | .inet6 => IPV6_HEADER_SIZE

/-- `worker_st`, as far as it is about the MTU. -/
structure MtuSt where
  proto : IpFamily
  /-- the client has an IPv6 address -/
  ipv6 : Bool
  try_mtu : Bool
  link_mtu : UInt32 := 0
  adv_link_mtu : UInt32 := 0
  last_good_mtu : UInt32 := 0
  last_bad_mtu : UInt32 := 0
  dtls_crypto_overhead : UInt32 := 0
  dtls_proto_overhead : UInt32 := 0
deriving DecidableEq, Repr

/-- `MAX`. -/
def larger (a b : UInt32) : UInt32 := if b < a then a else b

/-- `MIN`. -/
def smaller (a b : UInt32) : UInt32 := if a < b then a else b

namespace MtuSt

/-- `MIN_MTU`. -/
def min_mtu (ws : MtuSt) : UInt32 := if ws.ipv6 then 1280 else 800

/-- `DATA_MTU`. -/
def data_mtu (ws : MtuSt) (mtu : UInt32) : UInt32 :=
  mtu - ws.dtls_crypto_overhead - ws.dtls_proto_overhead

def link_mtu_set (ws : MtuSt) (mtu : UInt32) : MtuSt :=
  if ws.link_mtu = mtu ∨ BUFFER_SIZE < mtu ∨ mtu < ws.min_mtu then ws
  else { ws with link_mtu := mtu }

/-- `data_mtu_set`; `dtls_mtu` is what gnutls says is the MTU of the session once its data
MTU has been set. -/
def data_mtu_set (ws : MtuSt) (dtls_session : Bool) (dtls_mtu : UInt32 → UInt32) (mtu : UInt32) :
    MtuSt :=
  if dtls_session then
    let mtu := dtls_mtu (mtu + 1)
    if mtu ≤ 0 ∨ mtu = ws.link_mtu then ws
    else ws.link_mtu_set (mtu + ws.dtls_proto_overhead)
  else ws

def disable_mtu_disc (ws : MtuSt) : MtuSt :=
  { ws.link_mtu_set ws.adv_link_mtu with try_mtu := false }

/-- The end of the discovery where no MTU has been found. -/
def give_up (ws : MtuSt) : MtuSt := ws.disable_mtu_disc.link_mtu_set ws.min_mtu

/-- `mtu_not_ok`; `path_mtu` is what the kernel knows of the path, for IPv6. -/
def mtu_not_ok (ws : MtuSt) (dtls_session : Bool) (path_mtu : Option UInt32) : MtuSt :=
  if ws.try_mtu = false ∨ dtls_session = false then ws
  else
    match ws.proto with
    | .inet =>
      let ws := { ws with last_bad_mtu := ws.link_mtu }
      if ws.last_good_mtu = ws.min_mtu then ws.give_up
      else
        let ws :=
          if ws.link_mtu ≤ ws.last_good_mtu then
            { ws with last_good_mtu := larger (2 * ws.link_mtu / 3) ws.min_mtu }
          else ws
        ws.link_mtu_set ws.last_good_mtu
    | .inet6 =>
      match path_mtu with
      | none => ws.give_up
      | some mtu =>
        -- whether the MTU exceeds the advertised one is only logged
        if mtu < 1280 then ws.give_up else ws.link_mtu_set mtu

def mtu_discovery_init (ws : MtuSt) (mtu : UInt32) : MtuSt :=
  let ws := if mtu ≤ ws.min_mtu then ws.disable_mtu_disc else ws
  { ws with last_good_mtu := mtu, last_bad_mtu := mtu }

def mtu_ok (ws : MtuSt) : MtuSt :=
  if ws.try_mtu = false ∨ ws.proto = .inet6 then ws
  else if ws.last_bad_mtu = ws.link_mtu + 1 ∨ ws.last_bad_mtu = ws.link_mtu then ws
  else
    let ws := { ws with last_good_mtu := ws.link_mtu }
    ws.link_mtu_set ((ws.link_mtu + ws.last_bad_mtu) / 2)

/-- A path MTU of the TCP connection, which may reduce the link MTU. -/
def pmtu_reduce (ws : MtuSt) (pmtu : Int32) (mtu : UInt32) : MtuSt :=
  if 0 < pmtu ∧ pmtu.toUInt32 < mtu then ws.link_mtu_set pmtu.toUInt32 else ws

/-- `calc_mtu_values`; `crypto_overhead` is the overhead of the DTLS ciphersuite, if there is
one. -/
def calc_mtu_values (ws : MtuSt) (mtu : UInt32) (udp : Bool) (crypto_overhead : UInt32) : MtuSt :=
  { ws with
    dtls_proto_overhead := ws.proto.header_size + UDP_HEADER_SIZE
    dtls_crypto_overhead :=
      if udp then crypto_overhead + CSTP_DTLS_OVERHEAD else ws.dtls_crypto_overhead
    link_mtu := mtu
    adv_link_mtu := mtu }

end MtuSt

/-! ## The negotiation -/

/-- What `connect_handler` negotiates the MTU from. -/
structure MtuReq where
  proto : IpFamily
  ipv6 : Bool
  try_mtu : Bool
  /-- the MTU of the configuration or of the device -/
  vinfo_mtu : UInt32
  /-- the MTU in the configuration of the user -/
  user_mtu : UInt32 := 0
  /-- `X-CSTP-Base-MTU` -/
  link_mtu : UInt32 := 0
  /-- `X-CSTP-MTU` -/
  tunnel_mtu : UInt32 := 0
  /-- the largest overhead of a ciphersuite -/
  max_crypto_overhead : UInt32
  /-- the path MTU of the TCP connection -/
  pmtu : Int32 := -1
  /-- the client may use DTLS -/
  udp : Bool
  crypto_overhead : UInt32
deriving DecidableEq, Repr

namespace MtuReq

def min_mtu (req : MtuReq) : UInt32 := if req.ipv6 then 1280 else 800

/-- The MTU of the configuration. -/
def configured (req : MtuReq) : UInt32 := if 0 < req.user_mtu then req.user_mtu else req.vinfo_mtu

/-- The MTU with which the peer agrees. -/
def negotiated (req : MtuReq) : UInt32 :=
  if req.min_mtu ≤ req.link_mtu then smaller req.configured req.link_mtu
  else if 0 < req.link_mtu then req.configured
  else if 0 < req.tunnel_mtu then
    -- old clients send what they can transfer
    let lmtu := req.tunnel_mtu + (req.proto.header_size + UDP_HEADER_SIZE) +
      (CSTP_DTLS_OVERHEAD + req.max_crypto_overhead)
    if req.min_mtu ≤ lmtu then smaller req.configured lmtu else req.configured
  else req.configured

/-- The part of `connect_handler` that is about the MTU; there is no result when it fails. -/
def connect (req : MtuReq) : Option MtuSt :=
  let ws : MtuSt := { proto := req.proto, ipv6 := req.ipv6, try_mtu := req.try_mtu }
  let ws := ws.pmtu_reduce req.pmtu req.negotiated
  -- the link MTU is overwritten
  let ws := ws.calc_mtu_values req.negotiated req.udp req.crypto_overhead
  -- an assertion
  if ¬ ws.dtls_crypto_overhead + ws.dtls_proto_overhead < ws.min_mtu then none
  else if BUFFER_SIZE < ws.link_mtu + 16 then none
  else some ws

end MtuReq
end Ocserv
