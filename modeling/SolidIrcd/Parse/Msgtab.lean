import SolidIrcd.Parse.Line

/-! `msgtab` of `msg.h` without the rows of optional builds, and the lookup
that the command tree of `parse.c` performs on it. -/

namespace SolidIrcd.Parse

open Scan

private def entries (parameters : Nat) (unreg : Bool) (commands : List String) : List Message :=
  commands.map fun cmd => ⟨cmd.toList, .other, parameters, unreg⟩

def msgtab : List Message :=
  [⟨"PRIVMSG".toList, .mPrivate, maxPara, false⟩] ++
  entries maxPara true
    ["NICK", "QUIT", "ERROR", "USER", "SERVER", "PASS", "VERSION", "ADMIN", "SVINFO", "CAPAB",
     "DKEY"] ++
  entries maxPara false
    ["NOTICE", "JOIN", "MODE", "SAMODE", "SAJOIN", "PART", "TOPIC", "INVITE", "KICK", "WALLOPS",
     "LOCOPS", "PONG", "PING", "KILL", "AWAY", "SQUIT", "WHOIS", "WHO", "WHOWAS", "LIST", "NAMES",
     "TRACE", "LUSERS", "TIME", "OPER", "CONNECT", "STATS", "LINKS", "USERS", "HELP", "INFO",
     "DALINFO", "SOLIDINFO", "MOTD", "SJOIN", "GLOBOPS", "CHATOPS", "GOPER", "GNOTICE", "CLOSE",
     "KLINE", "UNKLINE", "HASH", "DNS", "REHASH", "RESTART", "DIE", "SET", "SVSNICK", "SVSKILL",
     "SVSMODE", "SVSHOLD", "AKILL", "RAKILL", "SILENCE", "SQLINE", "UNSQLINE", "BURST", "SGLINE",
     "UNSGLINE", "RESYNCH", "MODULE", "RWHO", "SVHOST", "SETIDENT", "SVIDENT", "MAP", "SHUN",
     "UNSHUN", "GLINE", "UNGLINE", "CONOPS", "SVSCLONE", "CHANKILL", "LUSERSLOCK", "LINKSCONTROL"] ++
  entries 1 false
    ["ISON", "USERHOST", "USERIP", "CHANSERV", "NICKSERV", "MEMOSERV", "ROOTSERV", "OPERSERV",
     "STATSERV", "HELPSERV", "BOTSERV", "DENORA", "SERVICES", "IDENTIFY", "WATCH", "NS", "CS",
     "MS", "RS", "OS", "SS", "HS", "BS", "DS"] ++
  entries 2 true
    ["PUT", "POST"]

/-- `tree_parse`, as a lookup in the table its tree is made of. -/
def treeParse (table : List Message) (cmd : Text) : Option Message :=
  table.find? fun message => mycmp message.cmd cmd

end SolidIrcd.Parse
