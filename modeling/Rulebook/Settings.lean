import Rulebook.Json.Reader
import Rulebook.Schema.Scalar
import Rulebook.Text.Lowercase
/-!
# Settings of the service

Settings come from given values and from the environment, where names may be in any case of letters;
given values win. What is absent has a default.
-/

namespace Rulebook

/-- How mail is sent. -/
structure MailSettings where
  /-- The host of the mail server; no mail is sent without one. -/
  host : Option String
  /-- The port of the mail server. -/
  port : Int
  /-- The user name at the mail server. -/
  username : Option String
  /-- The password at the mail server. -/
  password : Option String
  /-- The sender of mails. -/
  senderEmail : Option String
  /-- Where replies go. -/
  replyToEmail : Option String
  /-- Whether the connection is secured after it is open. -/
  useStartTls : Bool
  /-- Whether the connection is secured from the start. -/
  useSsl : Bool

/-- The settings. -/
structure Settings where
  /-- The name of the service. -/
  appName : String
  /-- The environment it runs in. -/
  env : String
  /-- The address of the database. -/
  databaseUrl : String
  /-- How many connections to the database are kept. -/
  poolSize : Int
  /-- How many further connections there may be. -/
  maxOverflow : Int
  /-- How many seconds to wait for a connection. -/
  poolTimeout : Int
  /-- After how many seconds a connection is renewed. -/
  poolRecycle : Int
  /-- Whether schedules are looked at. -/
  schedulerEnabled : Bool
  /-- The seconds between looks at the schedules. -/
  pollSeconds : Float
  /-- The seconds that a web address may take to answer. -/
  webhookTimeout : Float
  /-- The root directory of files. -/
  fileStoreRoot : String
  /-- The tables that actions may work on. -/
  tables : List String
  /-- How mail is sent. -/
  mail : MailSettings

namespace Settings

/-- Texts of values without blanks at the ends; empty ones are left out. -/
def tableNames (items : List Value) : List String :=
  (items.map fun v => Text.trim v.display).filter (!·.isEmpty)

/-- Reads the names of tables: a list, a list in JSON, or names with commas between them. -/
def readTables : Schema (List String)
  | .null => .valid []
  | .list items => .valid (tableNames items)
  | .text s =>
    if Text.allBlank s then .valid []
    else if s.toList.head? == some '[' then
      match Json.read s with
      | .ok (.list items) => .valid (tableNames items)
      | .ok _ => .fail (.rule "DATA_STORE_TABLES JSON value must be a list")
      | .error e => .fail (.rule (e.message s.toList))
    else .valid (tableNames ((s.splitOn ",").map .text))
  | v => .fail (.rule v.display)

/-- Reads a text without blanks at its ends, nothing if it is empty. -/
def readTrimmed : Schema (Option String)
  | .null => .valid none
  | v =>
    let s := Text.trim v.display
    .valid (if s.isEmpty then none else some s)

/-- Reads how mail is sent. -/
def readMail (fs : Fields) : Checked MailSettings :=
  MailSettings.mk
    <$> Schema.defaulted fs "smtp_host" readTrimmed none
    <*> Schema.defaulted fs "smtp_port" (Schema.intBetween 1 (some 65535)) 587
    <*> Schema.defaulted fs "smtp_username" readTrimmed none
    <*> Schema.defaulted fs "smtp_password" readTrimmed none
    <*> Schema.defaulted fs "smtp_sender_email" readTrimmed none
    <*> Schema.defaulted fs "smtp_reply_to_email" readTrimmed none
    <*> Schema.defaulted fs "smtp_use_starttls" Schema.bool true
    <*> Schema.defaulted fs "smtp_use_ssl" Schema.bool false

/-- Whether the environment is a productive one. -/
def isProduction (s : Settings) : Bool :=
  let env := Text.trim (Text.lower s.env)
  env == "prod" || env == "production"

/-- In production the database is not a file, and connections to the mail server are secured in one
way. -/
def check (s : Settings) : Checked Settings :=
  if !s.isProduction then .valid s
  else if "sqlite".toList.isPrefixOf (Text.lower s.databaseUrl).toList then
    .fail (.rule "DATABASE_URL cannot point at SQLite in production")
  else if s.mail.useSsl && s.mail.useStartTls then
    .fail (.rule "Set only one of SMTP_USE_SSL or SMTP_USE_STARTTLS in production")
  else .valid s

/-- Reads settings. -/
def read (fs : Fields) : Checked Settings :=
  (Settings.mk
    <$> Schema.defaulted fs "app_name" Schema.text "Autoflow Automation Engine"
    <*> Schema.defaulted fs "env" Schema.text "dev"
    <*> Schema.defaulted fs "database_url" Schema.text "sqlite:///./autoflow.db"
    <*> Schema.defaulted fs "db_pool_size" (Schema.intBetween 1 (some 100)) 10
    <*> Schema.defaulted fs "db_max_overflow" (Schema.intBetween 0 (some 200)) 20
    <*> Schema.defaulted fs "db_pool_timeout_seconds" (Schema.intBetween 1 (some 300)) 30
    <*> Schema.defaulted fs "db_pool_recycle_seconds" (Schema.intBetween 30 (some 86400)) 1800
    <*> Schema.defaulted fs "scheduler_enabled" Schema.bool true
    <*> Schema.defaulted fs "scheduler_poll_seconds" (Schema.positiveUpTo 3600) 15
    <*> Schema.defaulted fs "webhook_timeout_seconds" (Schema.positiveUpTo 600) 30
    <*> Schema.defaulted fs "file_store_root" Schema.text "./automation-files"
    <*> Schema.defaulted fs "data_store_tables" readTables []
    <*> readMail fs).andThen check

/-- The fields of the environment, their names in lower case. -/
def ofEnvironment (env : Fields) : Fields :=
  Fields.ofPairs (env.map fun (k, v) => (Text.lower k, v))

/-- Reads settings from given values and the environment. -/
def readSources (values env : Fields) : Checked Settings :=
  read (Fields.merge (ofEnvironment env) values)

/-- The payload of settings. -/
def toValue (s : Settings) : Value :=
  .object [("app_name", .text s.appName), ("env", .text s.env),
    ("database_url", .text s.databaseUrl), ("db_pool_size", .int s.poolSize),
    ("db_max_overflow", .int s.maxOverflow), ("db_pool_timeout_seconds", .int s.poolTimeout),
    ("db_pool_recycle_seconds", .int s.poolRecycle),
    ("scheduler_enabled", .bool s.schedulerEnabled),
    ("scheduler_poll_seconds", .float s.pollSeconds),
    ("webhook_timeout_seconds", .float s.webhookTimeout),
    ("file_store_root", .text s.fileStoreRoot), ("data_store_tables", .texts s.tables),
    ("smtp_host", .ofOption .text s.mail.host), ("smtp_port", .int s.mail.port),
    ("smtp_username", .ofOption .text s.mail.username),
    ("smtp_password", .ofOption .text s.mail.password),
    ("smtp_sender_email", .ofOption .text s.mail.senderEmail),
    ("smtp_reply_to_email", .ofOption .text s.mail.replyToEmail),
    ("smtp_use_starttls", .bool s.mail.useStartTls), ("smtp_use_ssl", .bool s.mail.useSsl)]

end Settings

end Rulebook
