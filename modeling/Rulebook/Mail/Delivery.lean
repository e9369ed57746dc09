import Rulebook.Mail.Message
/-!
# Delivery of mails

A mail is delivered over one connection to the mail server, which may refuse any command. A
connection that was opened is closed, whatever happened on it.
-/

namespace Rulebook

/-- A command to the mail server. -/
inductive MailCommand where
  /-- Opens the connection, secured from the start or not. -/
  | connect (secured : Bool) (host : String) (port : Int)
  /-- Secures the open connection. -/
  | startTls
  /-- Identifies the sender. -/
  | login (username password : String)
  /-- Sends a mail. -/
  | send (mail : Mail)
  /-- Closes the connection. -/
  | quit

/-- A mail server: the reason why it refuses a command, if it does. -/
abbrev MailServer := MailCommand → Option String

/-- How a delivery ended. -/
inductive Delivery where
  /-- The mail is sent. -/
  | sent
  /-- There is no mail server or no sender. -/
  | notConfigured
  /-- A command was refused. -/
  | failed (reason : String)

/-- The name of the way a delivery ended. -/
def Delivery.name : Delivery → String
  | .sent => "sent"
  | .notConfigured => "not_configured"
  | .failed _ => "failed"

/-- Why a delivery failed. -/
def Delivery.fault : Delivery → Option String
  | .sent => none
  | .notConfigured => some "Email delivery not_configured: SMTP not configured"
  | .failed reason => some ("Email delivery failed: " ++ reason)

/-- How many seconds the mail server may take. -/
def MailCommand.timeout : Int := 20

/-- The payload of a command: its word and what it says. -/
def MailCommand.toValue : MailCommand → Value
  | .connect secured host port =>
    .list [.text "connect", .text (if secured then "SMTP_SSL" else "SMTP"), .text host, .int port,
      .int timeout]
  | .startTls => .list [.text "starttls"]
  | .login username password => .list [.text "login", .text username, .text password]
  | .send mail => .list [.text "send", .text mail.subject]
  | .quit => .list [.text "quit"]

/-- The word of a command. -/
def MailCommand.word : MailCommand → String
  | .connect _ _ _ => "connect"
  | .startTls => "starttls"
  | .login _ _ => "login"
  | .send _ => "send"
  | .quit => "quit"

namespace MailSettings

/-- A setting that is present and not empty. -/
def given (setting : Option String) : Option String := setting.filter (!·.isEmpty)

/-- Whether mail can be sent. -/
def isConfigured (s : MailSettings) : Bool :=
  (given s.host).isSome && (given s.senderEmail).isSome

/-- The commands between opening and closing the connection. -/
def commands (s : MailSettings) (mail : Mail) : List MailCommand :=
  (if s.useStartTls && !s.useSsl then [.startTls] else []) ++
    (match given s.username with
      | some user => [.login user (s.password.getD "")]
      | none => []) ++ [.send mail]

/-- Gives commands until one is refused: those given, and the reason of the refusal. -/
def converse (server : MailServer) : List MailCommand → List MailCommand × Option String
  | [] => ([], none)
  | c :: rest =>
    match server c with
    | some reason => ([c], some reason)
    | none =>
      let (given, reason) := converse server rest
      (c :: given, reason)

/-- Delivers a mail: the commands given, and how it ended. -/
def deliver (s : MailSettings) (server : MailServer) (mail : Mail) : List MailCommand × Delivery :=
  match s.isConfigured, s.host with
  | true, some host =>
    let connect := .connect s.useSsl host s.port
    match server connect with
    | some reason => ([connect], .failed reason)
    | none =>
      let (given, reason) := converse server (s.commands mail)
      (connect :: given ++ [.quit],
        match reason with
        | some reason => .failed reason
        | none => .sent)
  | _, _ => ([], .notConfigured)

end MailSettings

end Rulebook
