import SolidIrcd.Channel.Mask
import SolidIrcd.Hash
import SolidIrcd.Lib.Machine
import Mathlib.Logic.Function.Basic

/-! LIST a page at a time: `send_list` of `channel.c`, which stops between two buckets of the
table of channels and goes on there when it is called again. -/

namespace SolidIrcd.Channel.Listing

open Function (update)
open Scan (Text)

/-- An `aChannel` pointer. -/
abbrev ChanId := Nat

/-- `CH_MAX`. -/
def chMax : Nat := 2048 * 8

/-- What `send_list` looks at of a channel. -/
structure Room where
  chptr : ChanId
  chname : Text
  users : Nat
  channelts : Int
  topicTime : Int
  secret : Bool
  /-- `MODE_LISTED`. -/
  listed : Bool
  /-- The client that lists is a member. -/
  member : Bool

/-- `LOpts`. -/
structure LOpts where
  yeslist : List Text
  nolist : List Text
  starthash : Nat
  showall : Bool
  onlyListed : Bool
  usermin : Int
  usermax : Int
  chantimemin : Int
  chantimemax : Int
  topictimemin : Int
  topictimemax : Int

/-- `find_str_link`. -/
def findStrLink (lp : List Text) (charptr : Text) : Bool := lp.any fun value => Mask.matchMask value charptr

/-- The big condition of `send_list`. -/
def LOpts.passes (lopt : LOpts) (chptr : Room) : Bool :=
  !(chptr.users < lopt.usermin || (lopt.usermax ≥ 0 && (chptr.users : Int) > lopt.usermax) ||
    chptr.channelts < lopt.chantimemin || chptr.topicTime < lopt.topictimemin || chptr.channelts > lopt.chantimemax ||
    chptr.topicTime > lopt.topictimemax || findStrLink lopt.nolist chptr.chname ||
    (!lopt.yeslist.isEmpty && !findStrLink lopt.yeslist chptr.chname))

/-- `SecretChannel` is for its members and for administrators. -/
def Room.hidden (chptr : Room) (admin : Bool) : Bool := chptr.secret && !admin && !chptr.member

/-- `send_list` sends a line for the channel. -/
def LOpts.shows (build : Build) (admin : Bool) (lopt : LOpts) (chptr : Room) : Bool :=
  !chptr.hidden admin && !(build.chanmodeL && lopt.onlyListed && !chptr.listed) && (lopt.showall || lopt.passes chptr)

/-- The loop of `send_list` through the buckets that are left: the channels it sends, and where
it stops. -/
def sendLoop (shows : Room → Bool) (table : Nat → List Room) : (buckets : Nat) → (hashnum : Nat) → (numsend : Int) →
    List Room × Nat
  | 0, hashnum, _ => ([], hashnum)
  | buckets + 1, hashnum, numsend =>
    if numsend > 0 then
      let sent := (table hashnum).filter shows
      let (rest, stop) := sendLoop shows table buckets (hashnum + 1) (numsend - sent.length)
      (sent ++ rest, stop)
    else ([], hashnum)

/-- `send_list`: the channels it sends, and the options that are left unless all is done. -/
def sendList (build : Build) (admin : Bool) (table : Nat → List Room) (lopt : LOpts) (numsend : Int) :
    List Room × Option LOpts :=
  let (sent, hashnum) := sendLoop (lopt.shows build admin) table (chMax - lopt.starthash) lopt.starthash numsend
  (sent, if hashnum = chMax then none else some { lopt with starthash := hashnum })

end SolidIrcd.Channel.Listing
