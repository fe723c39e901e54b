import SolidIrcd.Dns.Confirm
import SolidIrcd.Lib.Recency

/-! The cache of hosts with the connections that point into it, over everything the server does with it. -/

namespace SolidIrcd.Dns

open Scan (Text)

/-- A connection of `local[]`. -/
structure Local where
  cptr : ClientId
  ip : InAddr
  hostp : Option ACache

structure Server where
  resolver : Resolver
  /-- `local[]`. -/
  locals : Nat → Option Local
  highestFd : Nat
  expireat : ACache → Nat
  /-- When a host was found or made last, counted in `uses`. -/
  lastUse : ACache → Nat
  uses : Nat

namespace Server

/-- No connection up to `highest_fd` points to the host. -/
def clearHostp (server : Server) (ocp : ACache) : Server :=
  { server with
    locals := fun fd =>
      if fd ≤ server.highestFd then
        (server.locals fd).map fun cptr => if cptr.hostp = some ocp then { cptr with hostp := none } else cptr
      else server.locals fd }

/-- `rem_cache`. -/
def remCache (server : Server) (ocp : ACache) : Server :=
  { server.clearHostp ocp with resolver := Dns.remCache server.resolver ocp }

def use (server : Server) (cp : ACache) : Server :=
  { server with lastUse := Function.update server.lastUse cp server.uses, uses := server.uses + 1 }

/-- `add_to_cache`. -/
def addToCache (server : Server) (ocp : ACache) : Server :=
  let hashv := hashNumber (ocp.hAddrList.headD .zero)
  let server := { server.use ocp with
    resolver := { server.resolver with
      cachetop := ocp :: server.resolver.cachetop
      numList := Function.update server.resolver.numList hashv (ocp :: server.resolver.numList hashv)
      incache := server.resolver.incache + 1
      made := server.resolver.made + 1 } }
  if maxCached < server.resolver.incache then (server.resolver.cachetop.getLast?.map server.remCache).getD server
  else server

/-- `make_cache`, at a time. -/
def makeCache (server : Server) (rptr : ResRQ) (ttl now : Nat) : Server × Option ACache :=
  match rptr.he.hName, rptr.he.addrs with
  | none, _ | _, [] => (server, none)
  | some hName, addrs =>
    match findCacheNumbers server.resolver addrs with
    | (resolver, some cp) => (({ server with resolver := resolver }).use cp, some cp)
    | (resolver, none) =>
      let cp := ⟨resolver.made, hName, rptr.he.hAliases, addrs⟩
      (({ server with
        resolver := resolver
        expireat := Function.update server.expireat cp (now + max 600 ttl) }).addToCache cp, some cp)

end Server

/-- The request for which `get_res` calls `make_cache`. -/
def cached (res : Res) (state : Resolver) (packet : Packet) : Option ResRQ :=
  (answered res state packet).bind fun rptr =>
    let (rptr, _) := procAnswer res rptr packet
    match rptr.type, rptr.hasRev with
    | .ptr, _ => none
    | .a, true => confirm rptr
    | _, _ => some rptr

namespace Server

variable (res : Res)

/-- `get_res`, with what `make_cache` does to the connections. -/
def getRes (server : Server) (packet : Packet) (ttl now : Nat) (sending : Option Sending) :
    Server × Option Link × Option ACache :=
  let (resolver, lp, hp) := Dns.getRes res server.resolver packet sending
  match cached res server.resolver packet with
  | none => ({ server with resolver := resolver }, lp, hp)
  | some rptr => ({ (server.makeCache rptr ttl now).1 with resolver := resolver }, lp, hp)

def setLocal (server : Server) (fd : Nat) (cptr : Local) : Server :=
  { server with locals := Function.update server.locals fd (some cptr), highestFd := max fd server.highestFd }

/-- A turn of `do_dns_async`; `connect_server` may get a descriptor. -/
def doDnsAsync (server : Server) (packet : Packet) (ttl now : Nat) (sending : Option Sending)
    (connection : Option (Nat × ClientId)) : Server :=
  match server.getRes res packet ttl now sending with
  | (server, some (.client cptr), hp) =>
    { server with
      resolver := delQueries server.resolver (.inl cptr)
      locals := fun fd => (server.locals fd).map fun old => if old.cptr = cptr then { old with hostp := hp } else old }
  | (server, some (.connect _), some hp) =>
    match connection with
    | none => server
    | some (fd, cptr) => server.setLocal fd ⟨cptr, hp.hAddrList.headD .zero, some hp⟩
  | (server, _, _) => server

/-- `add_connection`. -/
def addConnection (server : Server) (fd : Nat) (cptr : ClientId) (ip : InAddr) (sending : Option Sending) : Server :=
  match gethostByaddr server.resolver ip (.client cptr) sending with
  | (resolver, none) => ({ server with resolver := resolver }).setLocal fd ⟨cptr, ip, none⟩
  | (resolver, some cp) => (({ server with resolver := resolver }).use cp).setLocal fd ⟨cptr, ip, some cp⟩

/-- `highest_fd` goes down to a descriptor that is in use. -/
def lowerFd (locals : Nat → Option Local) : Nat → Nat
  | 0 => 0
  | fd + 1 => if (locals (fd + 1)).isSome then fd + 1 else lowerFd locals fd

/-- `close_connection`. -/
def closeConnection (server : Server) (fd : Nat) (cptr : ClientId) : Server :=
  let locals := Function.update server.locals fd none
  { server with
    resolver := delQueries server.resolver (.inl cptr)
    locals := locals
    highestFd := lowerFd locals server.highestFd }

/-- `expire_cache`: the list is as it was before, less the hosts that were removed. -/
def expireCache (server : Server) (now : Nat) : Server :=
  server.resolver.cachetop.foldl (fun server cp => if server.expireat cp ≤ now then server.remCache cp else server) server

def flushLoop : Nat → Server → Server
  | 0, server => server
  | count + 1, server =>
    match server.resolver.cachetop with
    | [] => server
    | cp :: _ => flushLoop count (server.remCache cp)

/-- `flush_cache`: as often as there are hosts. -/
def flushCache (server : Server) : Server := flushLoop server.resolver.cachetop.length server

def dropHostp (server : Server) : Server :=
  { server with
    locals := fun fd =>
      if fd ≤ server.highestFd then (server.locals fd).map ({ · with hostp := none }) else server.locals fd }

end Server

inductive CacheEvent where
  | addConnection (fd : Nat) (cptr : ClientId) (ip : InAddr) (sending : Option Sending)
  /-- Where the address of the host is known. -/
  | connectServer (fd : Nat) (cptr : ClientId) (ip : InAddr)
  | doDnsAsync (packet : Packet) (ttl now : Nat) (sending : Option Sending) (connection : Option (Nat × ClientId))
  /-- `check_init` for a connection from the loopback network. -/
  | checkInit (fd : Nat)
  | closeConnection (fd : Nat) (cptr : ClientId)
  | startAuth (authfd : Nat)
  | endAuth (authfd : Nat)
  | gethostByname (name : Text) (lp : Link) (sending : Option Sending)
  | timeoutQuery (address : Nat) (sending : Option Sending)
  | expireCache (now : Nat)
  /-- For an operator. -/
  | flushCache
  /-- Not on SIGINT is the cache flushed. -/
  | rehash (flush : Bool)

namespace Server

def perform (res : Res) (server : Server) : CacheEvent → Server
  | .addConnection fd cptr ip sending => server.addConnection fd cptr ip sending
  | .connectServer fd cptr ip => server.setLocal fd ⟨cptr, ip, none⟩
  | .doDnsAsync packet ttl now sending connection => server.doDnsAsync res packet ttl now sending connection
  | .checkInit fd =>
    { server with locals := Function.update server.locals fd ((server.locals fd).map ({ · with hostp := none })) }
  | .closeConnection fd cptr => server.closeConnection fd cptr
  | .startAuth authfd => { server with highestFd := max authfd server.highestFd }
  | .endAuth authfd =>
    if authfd = server.highestFd then { server with highestFd := lowerFd server.locals server.highestFd } else server
  | .gethostByname name lp sending => { server with resolver := Dns.gethostByname server.resolver name lp sending }
  | .timeoutQuery address sending => { server with resolver := Dns.timeoutQuery server.resolver address sending }
  | .expireCache now => server.expireCache now
  | .flushCache => server.flushCache
  | .rehash flush => if flush then server.dropHostp.flushCache else server.dropHostp

def start : Server := ⟨World.start.resolver, fun _ => none, 0, fun _ => 0, fun _ => 0, 0⟩

end Server

def hosts (res : Res) : Machine Server CacheEvent := ⟨Server.perform res, fun _ _ => True⟩

end SolidIrcd.Dns
