import SolidIrcd.Common

/-! What may stand in a configuration file: the tables of `confparse.h`, built without `TOYS`, and lines of a file as
`confparse.c` reads them. -/

namespace SolidIrcd.Conf

open Scan (Text)

/-- `VARTYPE_INT` and so on. -/
inductive VarType where
  | int | string | name | none
  deriving DecidableEq, Repr

/-- `sConf`. -/
structure SConf where
  tok : Text
  var : VarType
  deriving DecidableEq, Repr

/-- `tConf`; `strings` where its only sub-token is `SCONFF_STRING`. -/
structure TConf where
  tok : Text
  flag : Nat
  nest : Nat
  strings : Bool
  subtok : List SConf
  deriving DecidableEq, Repr

/-- `cVar`: identified, with a value, or delimited. -/
structure CVar where
  type : Option SConf
  value : Option Text
  loaded : Nat
  deriving DecidableEq, Repr

def maxValues : Nat := 128

def confglobtab : List SConf :=
  [⟨"NAME".toList, .name⟩, ⟨"INFO".toList, .string⟩, ⟨"DPASS".toList, .name⟩, ⟨"RPASS".toList, .name⟩]

def confopttab : List SConf :=
  [⟨"NETWORK_NAME".toList, .name⟩, ⟨"SERVICES_NAME".toList, .name⟩, ⟨"STATS_NAME".toList, .name⟩,
    ⟨"MAXCHANNELS".toList, .int⟩, ⟨"WGMONHOST".toList, .name⟩, ⟨"WGMONURL".toList, .name⟩,
    ⟨"NETWORK_KLINE".toList, .name⟩, ⟨"LOCAL_KLINE".toList, .name⟩, ⟨"CRYPT_OPER_PASS".toList, .none⟩,
    ⟨"SHORT_MOTD".toList, .none⟩, ⟨"SERVTYPE".toList, .name⟩, ⟨"TS_MAX_DELTA".toList, .int⟩,
    ⟨"TS_WARN_DELTA".toList, .int⟩, ⟨"STAFF_ADDRESS".toList, .name⟩, ⟨"NSHELPURL".toList, .name⟩,
    ⟨"SHOW_LINKS".toList, .none⟩, ⟨"ALLOW_SPLIT_OPS".toList, .none⟩, ⟨"LOCAL_CLONES".toList, .name⟩,
    ⟨"GLOBAL_CLONES".toList, .name⟩, ⟨"HOST_DOMAIN".toList, .name⟩, ⟨"HOST_PREFIX".toList, .name⟩,
    ⟨"AUTO_UMODE_V".toList, .none⟩, ⟨"AUTO_UMODE_R".toList, .none⟩, ⟨"HIDDENSERVNAME".toList, .name⟩,
    ⟨"HIDDENSERVDESC".toList, .string⟩, ⟨"BOT_CLASS".toList, .name⟩, ⟨"HELPCHAN".toList, .name⟩,
    ⟨"WEBSITE".toList, .name⟩, ⟨"AUP".toList, .name⟩, ⟨"rquit".toList, .none⟩]

def confmoduletab : List SConf :=
  [⟨"PATH".toList, .name⟩, ⟨"AUTOLOAD".toList, .name⟩, ⟨"OPTLOAD".toList, .name⟩]

def confssltab : List SConf :=
  [⟨"CERTIFICATE".toList, .name⟩, ⟨"KEYFILE".toList, .name⟩, ⟨"allow_umodez".toList, .none⟩]

def confclasstab : List SConf :=
  [⟨"NAME".toList, .name⟩, ⟨"PINGFREQ".toList, .int⟩, ⟨"CONNFREQ".toList, .int⟩, ⟨"MAXCLONES".toList, .name⟩,
    ⟨"MAXUSERS".toList, .int⟩, ⟨"MAXLINKS".toList, .int⟩, ⟨"MAXSENDQ".toList, .int⟩, ⟨"AUTO_UMODE_V".toList, .none⟩]

def confallowtab : List SConf :=
  [⟨"HOST".toList, .name⟩, ⟨"IPMASK".toList, .name⟩, ⟨"PORT".toList, .int⟩, ⟨"PASSWD".toList, .name⟩,
    ⟨"CLASS".toList, .name⟩, ⟨"FLAGS".toList, .name⟩]

def confopertab : List SConf :=
  [⟨"NAME".toList, .name⟩, ⟨"HOST".toList, .name⟩, ⟨"PASSWD".toList, .name⟩, ⟨"ACCESS".toList, .name⟩,
    ⟨"CLASS".toList, .name⟩]

def confconnecttab : List SConf :=
  [⟨"NAME".toList, .name⟩, ⟨"HOST".toList, .name⟩, ⟨"BIND".toList, .name⟩, ⟨"APASSWD".toList, .name⟩,
    ⟨"CPASSWD".toList, .name⟩, ⟨"FLAGS".toList, .name⟩, ⟨"PORT".toList, .int⟩, ⟨"CLASS".toList, .name⟩]

def confrestricttab : List SConf := [⟨"REASON".toList, .string⟩, ⟨"TYPE".toList, .name⟩, ⟨"MASK".toList, .name⟩]

def confkilltab : List SConf := [⟨"REASON".toList, .string⟩, ⟨"MASK".toList, .name⟩]

def confporttab : List SConf :=
  [⟨"PORT".toList, .int⟩, ⟨"BIND".toList, .name⟩, ⟨"IPMASK".toList, .name⟩, ⟨"TYPE".toList, .name⟩]

/-- With `TOYS`. -/
def confelmertab : List SConf := [⟨"STRING".toList, .string⟩, ⟨"TRANSLATE".toList, .string⟩]

/-- `CONFF_ADMIN`. -/
def admin : Nat := 0x000200

def tconftab : List TConf :=
  [⟨"GLOBAL".toList, 0x000001, admin, false, confglobtab⟩,
    ⟨"OPTIONS".toList, 0x000002, 0, false, confopttab⟩,
    ⟨"CLASS".toList, 0x000004, 0, false, confclasstab⟩,
    ⟨"ALLOW".toList, 0x000008, 0, false, confallowtab⟩,
    ⟨"OPER".toList, 0x000010, 0, false, confopertab⟩,
    ⟨"CONNECT".toList, 0x000020, 0, false, confconnecttab⟩,
    ⟨"RESTRICT".toList, 0x000040, 0, false, confrestricttab⟩,
    ⟨"KILL".toList, 0x000100, 0, false, confkilltab⟩,
    ⟨"ADMIN".toList, admin, 0, true, []⟩,
    ⟨"SUPER".toList, 0x000080, 0, true, []⟩,
    ⟨"PORT".toList, 0x000400, 0, false, confporttab⟩,
    ⟨"MODULES".toList, 0x000800, 0, false, confmoduletab⟩,
    ⟨"SSL".toList, 0x001000, 0, false, confssltab⟩,
    ⟨"ELMER".toList, 0x002000, 0, false, confelmertab⟩]

/-! Lines -/

/-- A line with its newline, or as much of it as fits. -/
def cut : Nat → Text → Text × Text
  | 0, file => ([], file)
  | _, [] => ([], [])
  | room + 1, c :: rest => if c = '\n' then ([c], rest) else ((c :: (cut room rest).1), (cut room rest).2)

/-- `fgets(line, lineMax, file)`: the text up to the NUL of the line. -/
def fgets (lineMax : Nat) (file : Text) : Option (Text × Text) :=
  if file = [] then none else some ((cut (lineMax - 1) file).1.takeWhile (· ≠ '\x00'), (cut (lineMax - 1) file).2)

/-- `check_quote`, with `quote`: inside a comment everything up to its end is skipped. -/
def checkQuote : Bool → Text → Bool × Option Text
  | true, [] => (true, none)
  | true, '*' :: '/' :: rest => checkQuote false rest
  | true, _ :: rest => checkQuote true rest
  | false, [] => (false, none)
  | false, ' ' :: rest => checkQuote false rest
  | false, '\t' :: rest => checkQuote false rest
  | false, '#' :: _ => (false, none)
  | false, '\n' :: _ => (false, none)
  | false, '/' :: '/' :: _ => (false, none)
  | false, '/' :: '*' :: rest => checkQuote true rest
  | false, c :: rest => (false, some (c :: rest))

end SolidIrcd.Conf
