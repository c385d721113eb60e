import HermEX.Smtp.Dot
import HermEX.Smtp.Params

namespace HermEX.Smtp

open Framework

/-- `smtp.Session` in the environment `ρ`; without `auth` it cannot authenticate. -/
structure Backend (ρ σ : Type) where
  auth : Option (ρ → σ → Bytes → Bytes → Bool×σ)
  mail : ρ → σ → Bytes → MailParams → Except SessionErr Unit×σ
  rcpt : ρ → σ → Bytes → RcptParams → Except SessionErr Unit×σ
  data : ρ → σ → Bytes×Option ReadErr → Except SessionErr Unit×σ
  reset : σ → σ

/-- What one turn of the loop meets outside. -/
structure Env (ρ : Type) where
  backend : ρ
  hostname : Bytes
  tlsConfig : Bool
  maxSize : Nat
  maxCommandLine : Nat
  received : Bytes → Bool → Bytes
  buffered : Bool
  handshake : Option Wire
  linkLost : Bool

structure Reply where
  code : Nat
  text : Bytes

/-- `smtpConn`; `bodies` is what calls of `Data` read. -/
structure Conn (σ : Type) where
  r : Wire
  tls : Bool
  sess : σ
  greeted : Bool
  helo : Bytes
  hasFrom : Bool
  rcptCount : Nat
  binaryMIME : Bool
  smtputf8 : Bool
  bdatBuf : Option Bytes
  bdatErr : Bool
  closed : Bool
  replies : List Reply
  bodies : List (Bytes×Option ReadErr)

def newConn {σ : Type} (r : Wire) (tls : Bool) (sess : σ) : Conn σ :=
  ⟨r,tls,sess,false,[],false,0,false,false,none,false,false,[],[]⟩

def defaultMaxCommandLine : Nat := 512

inductive LineErr where
  | tooLong
  | io

def readLine (r : Wire) (max : Nat) : Except LineErr Bytes×Wire :=
  let line := (cutLine r.pending).1.dropLast
  let r' := {r with pending:=(cutLine r.pending).2}
  if lf∉r.pending then (.error .io,r')
  else if max > 0 ∧ line.length > max+1 then (.error .tooLong,r')
  else (.ok (if line.getLast?=some cr then line.dropLast else line),r')

def copyN (r : Wire) (n : Nat) : Bytes×Bool×Wire :=
  (r.pending.take n,n ≤ r.pending.length,{r with pending:=r.pending.drop n})

section Server

variable {ρ σ : Type} (T : Strings) (B : Backend ρ σ)

namespace Env

def commandLineLimit (env : Env ρ) : Nat :=
  if env.maxCommandLine > 0 then env.maxCommandLine else defaultMaxCommandLine

end Env

namespace Conn

def reply (c : Conn σ) (code : Nat) (text : Bytes) : Conn σ :=
  {c with replies:=c.replies++[⟨code,text⟩]}

def close (c : Conn σ) : Conn σ := {c with closed:=true}

def resetTxn (c : Conn σ) : Conn σ :=
  {c with hasFrom:=false,rcptCount:=0,binaryMIME:=false,smtputf8:=false,bdatBuf:=none,
          bdatErr:=false,sess:=B.reset c.sess}

def greet (c : Conn σ) (arg text : Bytes) : Conn σ :=
  {c.resetTxn B with greeted:=true,helo:=arg}.reply 250 text

def cmdHELO (env : Env ρ) (c : Conn σ) (arg : Bytes) : Conn σ := c.greet B arg env.hostname

def ehloText (env : Env ρ) (c : Conn σ) (arg : Bytes) : Bytes :=
  env.hostname++lit " Hello "++T.trimSpace arg++
    lit "\nPIPELINING\n8BITMIME\nENHANCEDSTATUSCODES\nSMTPUTF8\nCHUNKING\nBINARYMIME\n"++
    lit "MT-PRIORITY\nDSN"++
    (if env.maxSize > 0 then lit "\nSIZE "++lit (toString env.maxSize) else [])++
    (if env.tlsConfig && !c.tls then lit "\nSTARTTLS" else [])++
    (if B.auth.isSome && c.tls then lit "\nAUTH PLAIN LOGIN" else [])

def cmdEHLO (env : Env ρ) (c : Conn σ) (arg : Bytes) : Conn σ :=
  c.greet B arg (c.ehloText T B env arg)

def authResponse (env : Env ρ) (c : Conn σ) (inline challenge : Bytes) : Option Bytes×Conn σ :=
  let answer (c : Conn σ) (resp : Bytes) : Option Bytes×Conn σ :=
    if resp=lit "*" then (none,c.reply 501 (lit "5.7.8 authentication aborted"))
    else (some resp,c)
  if inline=[] then
    let c := c.reply 334 challenge
    match readLine c.r env.commandLineLimit with
    | (.error _,r) => (none,{c with r:=r})
    | (.ok line,r) => answer {c with r:=r} line
  else answer c inline

def authPlain (env : Env ρ) (c : Conn σ) (initial : Bytes) : Option (Bytes×Bytes)×Conn σ :=
  match c.authResponse env initial [] with
  | (none,c) => (none,c)
  | (some resp,c) =>
    match base64Decode resp with
    | none => (none,c.reply 501 (lit "5.5.2 invalid base64"))
    | some decoded =>
      match (cut 0 decoded).bind fun p => cut 0 p.2 with
      | none => (none,c.reply 501 (lit "5.5.2 malformed PLAIN response"))
      | some creds => (some creds,c)

def authLogin (env : Env ρ) (c : Conn σ) (initial : Bytes) : Option (Bytes×Bytes)×Conn σ :=
  match c.authResponse env initial (lit "VXNlcm5hbWU6") with
  | (none,c) => (none,c)
  | (some user,c) =>
    match base64Decode user with
    | none => (none,c.reply 501 (lit "5.5.2 invalid base64"))
    | some username =>
      match c.authResponse env [] (lit "UGFzc3dvcmQ6") with
      | (none,c) => (none,c)
      | (some pass,c) =>
        match base64Decode pass with
        | none => (none,c.reply 501 (lit "5.5.2 invalid base64"))
        | some password => (some (username,password),c)

def authExchange (env : Env ρ) (c : Conn σ) (arg : Bytes) : Option (Bytes×Bytes)×Conn σ :=
  if B.auth.isNone then (none,c.reply 503 (lit "5.5.1 AUTH not available"))
  else if !c.tls then (none,c.reply 538 (lit "5.7.11 STARTTLS required before AUTH"))
  else
    let (mechanism,initial) := (cut 0x20 arg).getD (arg,[])
    if T.toUpper mechanism=lit "PLAIN" then c.authPlain env initial
    else if T.toUpper mechanism=lit "LOGIN" then c.authLogin env initial
    else (none,c.reply 504 (lit "5.5.4 Unrecognized authentication type"))

def finishAuth (env : Env ρ) (c : Conn σ) (user password : Bytes) : Conn σ :=
  match B.auth with
  | none => c
  | some auth =>
    match auth env.backend c.sess user password with
    | (false,s) => {c with sess:=s}.reply 535 (lit "5.7.8 authentication failed")
    | (true,s) => {c with sess:=s}.reply 235 (lit "2.7.0 authentication successful")

def cmdAUTH (env : Env ρ) (c : Conn σ) (arg : Bytes) : Conn σ :=
  match c.authExchange T B env arg with
  | (none,c) => c
  | (some (user,password),c) => c.finishAuth B env user password

def cmdSTARTTLS (env : Env ρ) (c : Conn σ) : Conn σ :=
  if !env.tlsConfig || c.tls then c.reply 502 (lit "STARTTLS not available")
  else if env.buffered then c.close
  else
    let c := c.reply 220 (lit "ready to start TLS")
    match env.handshake with
    | none => c.close
    | some r => {({c with r:=r,tls:=true}.resetTxn B) with greeted:=false,helo:=[]}

def replySessionErr (c : Conn σ) : SessionErr → Conn σ
  | .temp message => c.reply 451 message
  | .perm message => c.reply 550 message
  | _ => c.reply 550 (lit "5.3.0 recipient rejected")

def replyDataErr (c : Conn σ) : SessionErr → Conn σ
  | .temp message => c.reply 451 message
  | .tooLarge => c.reply 552 (lit "message exceeds size limit")
  | .perm message => c.reply 554 message
  | .internal => c.reply 554 (lit "5.3.0 transaction failed")

def checkMailParams (env : Env ρ) (arg : Bytes) (params : List (Bytes×Bytes)) :
    Except Reply MailParams :=
  if env.maxSize > 0 ∧ ∃ sz∈declaredSize params,(env.maxSize : Int) < sz then
    .error ⟨552,lit "5.3.4 message size exceeds limit"⟩
  else if mtPriorityValid T arg=(true,false) then
    .error ⟨501,lit "5.5.2 syntax error in MT-PRIORITY parameter"⟩
  else match dsnMailParams T arg with
    | none => .error ⟨501,lit "5.5.4 syntax error in DSN parameter"⟩
    | some mailDSN => .ok mailDSN

def cmdMAIL (env : Env ρ) (c : Conn σ) (arg : Bytes) : Conn σ :=
  if !c.greeted then c.reply 503 (lit "5.5.1 send HELO/EHLO first")
  else match extractPath T arg (lit "FROM:") with
    | none => c.reply 501 (lit "syntax: MAIL FROM:<address>")
    | some addr =>
      let params := esmtpParams T arg
      let wantsUTF8 := (param params "SMTPUTF8").isSome
      if needsUTF8Keyword addr wantsUTF8 then
        c.reply 550 (lit "5.6.7 non-ASCII address requires the SMTPUTF8 extension")
      else match checkMailParams T env arg params with
        | .error e => c.reply e.code e.text
        | .ok mailDSN =>
          let c := c.resetTxn B
          match B.mail env.backend c.sess addr mailDSN with
          | (.error e,s) => {c with sess:=s}.replySessionErr e
          | (.ok (),s) =>
            {c with sess:=s,hasFrom:=true,smtputf8:=wantsUTF8,
                    binaryMIME:=T.equalFold ((param params "BODY").getD [])
                      (lit "BINARYMIME")}.reply 250 (lit "OK")

def cmdRCPT (env : Env ρ) (c : Conn σ) (arg : Bytes) : Conn σ :=
  if !c.hasFrom then c.reply 503 (lit "need MAIL before RCPT")
  else match extractPath T arg (lit "TO:") with
    | none => c.reply 501 (lit "syntax: RCPT TO:<address>")
    | some addr =>
      if needsUTF8Keyword addr c.smtputf8 then
        c.reply 553 (lit "5.6.7 non-ASCII address requires the SMTPUTF8 extension")
      else match dsnRcptParams T arg with
        | none => c.reply 501 (lit "5.5.4 syntax error in DSN parameter")
        | some rcptDSN =>
          match B.rcpt env.backend c.sess addr rcptDSN with
          | (.error e,s) => {c with sess:=s}.replySessionErr e
          | (.ok (),s) => {c with sess:=s,rcptCount:=c.rcptCount+1}.reply 250 (lit "OK")

def takeBody (env : Env ρ) (c : Conn σ) (body : Bytes×Option ReadErr) : Conn σ :=
  let c := {c with bodies:=c.bodies++[body]}
  let c := match B.data env.backend c.sess body with
    | (.error e,s) => {c with sess:=s}.replyDataErr e
    | (.ok (),s) => {c with sess:=s}.reply 250 (lit "OK")
  c.resetTxn B

def cmdDATA (env : Env ρ) (c : Conn σ) : Conn σ :=
  if c.bdatBuf.isSome then c.reply 503 (lit "5.5.1 DATA not allowed after BDAT; send RSET")
  else if c.binaryMIME then c.reply 503 (lit "5.5.1 BINARYMIME requires BDAT, not DATA")
  else if c.rcptCount=0 then c.reply 503 (lit "need RCPT before DATA")
  else
    let c := c.reply 354 (lit "end data with <CR><LF>.<CR><LF>")
    let (body,r) := consumeData env.maxSize (env.received c.helo c.tls) c.r
    {c with r:=r}.takeBody B env body

def chunkViable (c : Conn σ) : Bool := c.greeted && 0 < c.rcptCount && !c.bdatErr

def bufferChunk (c : Conn σ) (size limit : Nat) : Option (Conn σ) :=
  let buf := c.bdatBuf.getD []
  let toBuf := if limit > 0 then min size (limit+1-buf.length) else size
  let (got,ok,r) := copyN c.r toBuf
  let (_,ok',r') := copyN r (size-toBuf)
  if ok && ok' then some {c with r:=r',bdatBuf:=some (buf++got)} else none

def readChunk (c : Conn σ) (size limit : Nat) : Option (Conn σ) :=
  if !c.chunkViable then
    let (_,ok,r) := copyN c.r size
    if ok then some {c with r:=r} else none
  else c.bufferChunk size limit

def replyBDAT (env : Env ρ) (c : Conn σ) (size : Nat) (last : Bool) (limit : Nat) : Conn σ :=
  let buf := c.bdatBuf.getD []
  if !c.greeted then c.reply 503 (lit "5.5.1 send HELO/EHLO first")
  else if c.rcptCount=0 then c.reply 503 (lit "5.5.1 need MAIL and RCPT before BDAT")
  else if c.bdatErr then c.reply 503 (lit "5.5.0 BDAT transaction failed; send RSET")
  else if limit > 0 ∧ buf.length > limit then
    {c with bdatErr:=true}.reply 552 (lit "5.3.4 message size exceeds limit")
  else if !last then
    c.reply 250 (lit "2.0.0 "++lit (toString size)++lit " octets received")
  else c.takeBody B env (env.received c.helo c.tls++buf,none)

def cmdBDAT (env : Env ρ) (c : Conn σ) (arg : Bytes) : Conn σ :=
  match parseBDAT T arg with
  | none => c.reply 501 (lit "5.5.4 syntax: BDAT <chunk-size> [LAST]")
  | some (size,last) =>
    match c.readChunk size env.maxSize with
    | none => c.close
    | some c => c.replyBDAT B env size last env.maxSize

def cmdRSET (c : Conn σ) : Conn σ := (c.resetTxn B).reply 250 (lit "OK")

def cmdQUIT (env : Env ρ) (c : Conn σ) : Conn σ :=
  (c.reply 221 (env.hostname++lit " closing connection")).close

inductive Verb where
  | helo | ehlo | auth | starttls | mail | rcpt | data | bdat | rset | noop | quit | vrfy | expn
  | help
deriving DecidableEq

def commandTable : List (Bytes×Verb) :=
  [(lit "HELO",.helo),(lit "EHLO",.ehlo),(lit "AUTH",.auth),(lit "STARTTLS",.starttls),
    (lit "MAIL",.mail),(lit "RCPT",.rcpt),(lit "DATA",.data),(lit "BDAT",.bdat),
    (lit "RSET",.rset),(lit "NOOP",.noop),(lit "QUIT",.quit),(lit "VRFY",.vrfy),
    (lit "EXPN",.expn),(lit "HELP",.help)]

def run (env : Env ρ) (c : Conn σ) (verb : Verb) (arg : Bytes) : Conn σ :=
  match verb with
  | .helo => c.cmdHELO B env arg
  | .ehlo => c.cmdEHLO T B env arg
  | .auth => c.cmdAUTH T B env arg
  | .starttls => c.cmdSTARTTLS B env
  | .mail => c.cmdMAIL T B env arg
  | .rcpt => c.cmdRCPT T B env arg
  | .data => c.cmdDATA B env
  | .bdat => c.cmdBDAT T B env arg
  | .rset => c.cmdRSET B
  | .noop => c.reply 250 (lit "OK")
  | .quit => c.cmdQUIT env
  | .vrfy =>
    c.reply 252 (lit "2.1.5 Cannot VRFY user, but will accept message and attempt delivery")
  | .expn => c.reply 502 (lit "5.5.1 EXPN not available")
  | .help => c.reply 214
      (lit ("2.0.0 hermEX ESMTP; supported: HELO EHLO MAIL RCPT DATA BDAT RSET NOOP QUIT "++
        "(RFC 5321)"))

def command (line : Bytes) : Option Verb×Bytes :=
  let (cmd,arg) := (cut 0x20 line).getD (line,[])
  (commandTable.lookup (T.toUpper cmd),arg)

def serve (c : Conn σ) (env : Env ρ) : Conn σ :=
  if c.closed then c
  else match readLine c.r env.commandLineLimit with
    | (.error .tooLong,r) => {c with r:=r}.reply 500 (lit "5.5.2 line too long")
    | (.error .io,r) => {c with r:=r}.close
    | (.ok line,r) =>
      let c := {c with r:=r}
      if env.linkLost then c.close
      else match command T line with
        | (none,_) => c.reply 500 (lit "command not recognized")
        | (some verb,arg) => c.run T B env verb arg

end Conn
end Server
end HermEX.Smtp
