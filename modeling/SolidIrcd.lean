import SolidIrcd.Lib.Scan
import SolidIrcd.Lib.Token
import SolidIrcd.Lib.Tree
import SolidIrcd.Lib.Recency
import SolidIrcd.Lib.Lines
import SolidIrcd.Lib.CString
import SolidIrcd.Common
import SolidIrcd.Parse.Line
import SolidIrcd.Parse.Msgtab
import SolidIrcd.Parse.MessageTree
import SolidIrcd.Parse.CursorSafety
import SolidIrcd.Parse.Penalty
import SolidIrcd.User.Umode
import SolidIrcd.User.UmodeBuffer
import SolidIrcd.User.UserHost
import SolidIrcd.User.HostMask
import SolidIrcd.User.Privilege
import SolidIrcd.User.ModeString
import SolidIrcd.Lib.Machine
import SolidIrcd.User.VisibleHost
import SolidIrcd.Lib.Overlay
import SolidIrcd.User.Copy
import SolidIrcd.Lib.Census
import SolidIrcd.Recv.SBuf
import SolidIrcd.Recv.Getmsg
import SolidIrcd.Recv.ClientQueue
import SolidIrcd.Recv.LineOrder
import SolidIrcd.Lib.Meter
import SolidIrcd.Recv.Flood
import SolidIrcd.Lib.Link
import SolidIrcd.Nick.Collision
import SolidIrcd.Lib.Decimal
import SolidIrcd.Channel.Mask
import SolidIrcd.Channel.Basic
import SolidIrcd.Channel.SetMode
import SolidIrcd.Channel.Touch
import SolidIrcd.Channel.Authority
import SolidIrcd.Parse.Params
import SolidIrcd.Parse.Grammar
import SolidIrcd.Lib.Batch
import SolidIrcd.Channel.Burst
import SolidIrcd.Channel.Sjoin
import SolidIrcd.Channel.ListLine
import SolidIrcd.Channel.SjoinLine
import SolidIrcd.Channel.Absorb
import SolidIrcd.Channel.RoundTrip
import SolidIrcd.Lib.Merge
import SolidIrcd.Channel.Converge
import SolidIrcd.Channel.Semilattice
import SolidIrcd.Channel.MaskMatch
import SolidIrcd.Lib.Glob
import SolidIrcd.Channel.MaskGlob
import SolidIrcd.Channel.Collapse
import SolidIrcd.Channel.Edit
import SolidIrcd.Channel.Origin
import SolidIrcd.Channel.Written
import SolidIrcd.Channel.Relay
import SolidIrcd.Lib.Cascade
import SolidIrcd.User.Silence
import SolidIrcd.Lib.Mirror
import SolidIrcd.User.Flud
import SolidIrcd.User.Dccallow
import SolidIrcd.Hash
import SolidIrcd.Watch.Table
import SolidIrcd.Watch.Lists
import SolidIrcd.Channel.BanCache
import SolidIrcd.Channel.BanMatch
import SolidIrcd.Lib.Window
import SolidIrcd.Channel.JoinRate
import SolidIrcd.Channel.CanJoin
import SolidIrcd.Channel.MaskLists
import SolidIrcd.Channel.Listing
import SolidIrcd.Channel.ListOptions
import SolidIrcd.Channel.ListPages
import SolidIrcd.Channel.Names
import SolidIrcd.Channel.Fields
import SolidIrcd.Channel.Capacity
import SolidIrcd.Lib.Shelf
import SolidIrcd.Lib.SignExtend
import SolidIrcd.UserBan.Store
import SolidIrcd.UserBan.Print
import SolidIrcd.UserBan.Exact
import SolidIrcd.UserBan.Listed
import SolidIrcd.UserBan.WildAddress
import SolidIrcd.UserBan.Command
import SolidIrcd.Kline.Journal
import SolidIrcd.Kline.Replay
import SolidIrcd.Kline.Recovery
import SolidIrcd.Kline.Persist
import SolidIrcd.Kline.Failure
import SolidIrcd.Gline.Agreement
import SolidIrcd.Lib.Chain
import SolidIrcd.Whowas.History
import SolidIrcd.Whowas.Recall
import SolidIrcd.Throttle.Limiter
import SolidIrcd.Throttle.Bound
import SolidIrcd.Client.NameTable
import SolidIrcd.Recv.Bytes
import SolidIrcd.Channel.Topic
import SolidIrcd.Lib.Stamp
import SolidIrcd.Send.Channel
import SolidIrcd.UserBan.Shun
import SolidIrcd.UserBan.Akill
import SolidIrcd.Clones.Table
import SolidIrcd.Clones.Count
import SolidIrcd.Clones.Monotone
import SolidIrcd.Lib.Flood
import SolidIrcd.Lib.FreeList
import SolidIrcd.Send.Arena
import SolidIrcd.Send.Conserve
import SolidIrcd.Send.Queues
import SolidIrcd.Lib.Bitmap
import SolidIrcd.Memory.BlockHeap
import SolidIrcd.Client.Split
import SolidIrcd.Channel.Registry
import SolidIrcd.Channel.Roster
import SolidIrcd.Client.Counters
import SolidIrcd.Lib.Keystream
import SolidIrcd.Dns.Resolver
import SolidIrcd.Dns.Reply
import SolidIrcd.Dns.Requests
import SolidIrcd.Dns.Confirm
import SolidIrcd.Dns.Datagram
import SolidIrcd.Dns.Bounds
import SolidIrcd.Dns.Rejected
import SolidIrcd.Dns.Cache
import SolidIrcd.Dns.CacheOrder
import SolidIrcd.Dns.Entries
import SolidIrcd.Dns.Decoding
import SolidIrcd.Kill.Table
import SolidIrcd.Kill.View
import SolidIrcd.Kill.Names
import SolidIrcd.Kill.Agree
import SolidIrcd.Kill.Deliver
import SolidIrcd.Kill.Converge
import SolidIrcd.Transport.Rc4
import SolidIrcd.Transport.Dopacket
import SolidIrcd.Transport.Absorb
import SolidIrcd.Transport.SendMessage
import SolidIrcd.Transport.Transparent
import SolidIrcd.Transport.ZipOutput
import SolidIrcd.User.Probability
import SolidIrcd.Transport.Dkey
import SolidIrcd.Transport.Follow
import SolidIrcd.Transport.Encrypt
import SolidIrcd.Transport.Handshake
import SolidIrcd.Transport.KeyAgreement
import SolidIrcd.Send.Servmask
import SolidIrcd.Send.Network
import SolidIrcd.Client.Hunt
import SolidIrcd.Client.Netburst
import SolidIrcd.Client.ServerAccess
import SolidIrcd.UserBan.SimBan
import SolidIrcd.UserBan.SimLedger
import SolidIrcd.Lib.Hops
import SolidIrcd.UserBan.SimSync
import SolidIrcd.Lib.Answer
import SolidIrcd.Who.RwhoOptions
import SolidIrcd.Who.Rwho
import SolidIrcd.Who.Population
import SolidIrcd.Who.WhoOptions
import SolidIrcd.Who.WhoRequest
import SolidIrcd.Who.WhoSearch
import SolidIrcd.User.Ctcp
import SolidIrcd.User.DccSend
import SolidIrcd.Conf.Tables
import SolidIrcd.Conf.Parser
import SolidIrcd.Conf.Fences
import SolidIrcd.Conf.Layout
import SolidIrcd.Lib.Refs
import SolidIrcd.Conf.Blocks
import SolidIrcd.Conf.Rehash
import SolidIrcd.Conf.Ledger
import SolidIrcd.Conf.Attached
import SolidIrcd.Conf.Clients
import SolidIrcd.Conf.Merged
import SolidIrcd.Conf.InUse
import SolidIrcd.Parse.ParvCopy
import SolidIrcd.Client.Scache
import SolidIrcd.Lib.Firsts
import SolidIrcd.User.Canonize
import SolidIrcd.Throttle.HashTable
import SolidIrcd.Throttle.Tables
import SolidIrcd.User.TargetLimit
import SolidIrcd.User.Averages
import SolidIrcd.User.Whois
