import AuthCore.Error.Basic
import AuthCore.Otp.Message
import AuthCore.Role

/-!
# Log events

Everything that is logged, as data. The wording of an event, its level and where it comes from are
functions of the event.
-/

namespace AuthCore

/-- How much an event matters. -/
inductive Level where
  | debug
  | info
  | warn
  | error
  deriving DecidableEq, Repr

/-- The name of a level. -/
def Level.name : Level → String
  | .debug => "DEBUG"
  | .info => "INFO"
  | .warn => "WARN"
  | .error => "ERROR"

/-- The stage of the work in which an event happens. -/
inductive Stage where
  | startup
  | shutdown
  | authentication
  | authorization
  | token
  | otp
  | cache
  | database
  | notification
  | configuration
  deriving DecidableEq, Repr

namespace Stage

/-- The name of a stage. -/
def name : Stage → String
  | startup => "startup"
  | shutdown => "shutdown"
  | authentication => "authentication"
  | authorization => "authorization"
  | token => "token"
  | otp => "otp"
  | cache => "cache"
  | database => "database"
  | notification => "notification"
  | configuration => "configuration"

/-- All stages. -/
def all : List Stage :=
  [startup, shutdown, authentication, authorization, token, otp, cache, database, notification,
   configuration]

end Stage

/-- The part of the program in which an event happens. -/
inductive Component where
  | main
  | auth
  | token
  | otp
  | permission
  | group
  | cache
  | database
  | notifier
  | social
  | config
  deriving DecidableEq, Repr

namespace Component

/-- The name of a component. -/
def name : Component → String
  | main => "main"
  | auth => "auth"
  | token => "token"
  | otp => "otp"
  | permission => "permission"
  | group => "group"
  | cache => "cache"
  | database => "database"
  | notifier => "notifier"
  | social => "social"
  | config => "config"

/-- All components. -/
def all : List Component :=
  [main, auth, token, otp, permission, group, cache, database, notifier, social, config]

end Component

/-- Where an event comes from. -/
structure Origin where
  /-- The stage of the work. -/
  stage : Stage
  /-- The part of the program. -/
  component : Component
  /-- The name of the operation. -/
  operation : String
  deriving DecidableEq, Repr

/-- The channels of delivery. -/
inductive Channel where
  | sms
  | email
  deriving DecidableEq, Repr

/-- The name of a channel in messages. -/
def Channel.title : Channel → String
  | .sms => "短信"
  | .email => "邮件"

/-- Something worth a line in the log. -/
inductive Event where
  | memoryCacheUsed (capacity : Nat)
  | memoryCacheFull (capacity : Nat) (key : String)
  | redisConnecting
  | redisConnected
  | cacheWritten (key : String)
  | databaseConnecting (url : String)
  | databaseConnected
  | directoryCreated (path : String)
  | fileCreated (path : String)
  | migrationStarted
  | migrationDone
  | migrationFailed (reason : String)
  | migrationsPending (count : Nat)
  | signedIn (user : Int)
  | passwordMismatch (username : String)
  | registered (user : Int) (username : String)
  | profileReceived (provider : String)
  | codeExchanged
  | signedOut (target actor : Int)
  | passwordChanged (user : Int)
  | tokenIssued (user : Int) (role : Role) (limited : Bool)
  | refreshMismatch (user : Int)
  | tokenRefreshed (user : Int)
  | otpRequested (username : String) (purpose : OtpPurpose)
  | otpVerified (username : String)
  | otpMismatch (username : String) (retries limit : Int)
  | otpLocked (username : String)
  | deliveryFailed (recipient : String) (error : Error)
  | smsLogged (recipient : String) (size : Nat)
  | emailLogged (recipient subject : String) (size : Nat)
  | webhookDelivered (channel : Channel)
  | groupMissing (user : Int) (name : String)
  | permissionDenied (user : Int) (entity rule : String)
  | groupCreated (name : String)
  | groupUpdated (name : String)
  | groupsDeleted (deleted kept : Nat)
  | defaultConfig (path : String)
  | overridden (what : String)
  | configReady (cache : CacheType) (testMode : Bool)
  | configLoaded (cache : CacheType) (testMode : Bool)
  | configChecked (cacheKind : String)
  | migrationComplete
  | commandFailed (error : Error)
  deriving DecidableEq

namespace Event

open Text (showInt showNat)

/-- The word for a truth value. -/
def truth (b : Bool) : String := if b then "true" else "false"

/-- What a configuration amounts to, in short. -/
def configSummary (cache : CacheType) (testMode : Bool) : String :=
  "cache=" ++ cache.title ++ ", otp_test_mode=" ++ truth testMode

/-- How much an event matters. -/
def level : Event → Level
  | cacheWritten _ | profileReceived _ | codeExchanged | tokenIssued _ _ _ | otpMismatch _ _ _
  | otpLocked _ | webhookDelivered _ | groupMissing _ _ | permissionDenied _ _ _
  | overridden _ => .debug
  | memoryCacheFull _ _ | migrationsPending _ | passwordMismatch _ | refreshMismatch _
  | deliveryFailed _ _ | defaultConfig _ => .warn
  | migrationFailed _ | commandFailed _ => .error
  | _ => .info

/-- Where an event comes from; the events of reading a configuration do not say. -/
def origin? : Event → Option Origin
  | memoryCacheUsed _ => some ⟨.startup, .cache, "cache_memory"⟩
  | memoryCacheFull _ _ => some ⟨.cache, .cache, "memory_cache_full"⟩
  | redisConnecting => some ⟨.cache, .cache, "connect_to_redis"⟩
  | redisConnected => some ⟨.cache, .cache, "redis_connected"⟩
  | cacheWritten _ => some ⟨.cache, .cache, "set_cache_ok"⟩
  | databaseConnecting _ => some ⟨.database, .database, "connect"⟩
  | databaseConnected => some ⟨.database, .database, "connected"⟩
  | directoryCreated _ => some ⟨.startup, .database, "create_db_dir"⟩
  | fileCreated _ => some ⟨.startup, .database, "create_db_file"⟩
  | migrationStarted => some ⟨.database, .database, "migrate_start"⟩
  | migrationDone => some ⟨.database, .database, "migrate_done"⟩
  | migrationFailed _ => some ⟨.database, .database, "migrate_failed"⟩
  | migrationsPending _ => some ⟨.database, .database, "pending_migrations"⟩
  | signedIn _ => some ⟨.authentication, .auth, "login_success"⟩
  | passwordMismatch _ => some ⟨.authentication, .auth, "password_mismatch"⟩
  | registered _ _ => some ⟨.authentication, .auth, "user_registered"⟩
  | profileReceived _ => some ⟨.authentication, .social, "social_profile"⟩
  | codeExchanged => some ⟨.authentication, .social, "google_code_exchanged"⟩
  | signedOut _ _ => some ⟨.authentication, .auth, "logout"⟩
  | passwordChanged _ => some ⟨.authentication, .auth, "password_changed"⟩
  | tokenIssued _ _ _ => some ⟨.token, .token, "token_issued"⟩
  | refreshMismatch _ => some ⟨.token, .token, "refresh_user_mismatch"⟩
  | tokenRefreshed _ => some ⟨.token, .token, "token_refreshed"⟩
  | otpRequested _ _ => some ⟨.otp, .otp, "otp_requested"⟩
  | otpVerified _ => some ⟨.otp, .otp, "otp_verified"⟩
  | otpMismatch _ _ _ => some ⟨.otp, .otp, "otp_mismatch"⟩
  | otpLocked _ => some ⟨.otp, .otp, "otp_locked"⟩
  | deliveryFailed _ _ => some ⟨.notification, .otp, "otp_delivery_failed"⟩
  | smsLogged _ _ => some ⟨.notification, .notifier, "sms_logged"⟩
  | emailLogged _ _ _ => some ⟨.notification, .notifier, "email_logged"⟩
  | webhookDelivered _ => some ⟨.notification, .notifier, "webhook_delivered"⟩
  | groupMissing _ _ => some ⟨.authorization, .permission, "group_missing"⟩
  | permissionDenied _ _ _ => some ⟨.authorization, .permission, "permission_denied"⟩
  | groupCreated _ => some ⟨.authorization, .group, "group_created"⟩
  | groupUpdated _ => some ⟨.authorization, .group, "group_updated"⟩
  | groupsDeleted _ _ => some ⟨.authorization, .group, "groups_deleted"⟩
  | configLoaded _ _ => some ⟨.configuration, .config, "config_loaded"⟩
  | configChecked _ => some ⟨.configuration, .config, "config_ok"⟩
  | migrationComplete => some ⟨.startup, .main, "migrate_complete"⟩
  | commandFailed _ => some ⟨.shutdown, .main, "command_failed"⟩
  | defaultConfig _ | overridden _ | configReady _ _ => none

/-- The message of an event. -/
def message : Event → String
  | memoryCacheUsed capacity => "使用内存缓存，最大条目数: " ++ showNat capacity
  | memoryCacheFull capacity key =>
    "内存缓存已满（" ++ showNat capacity ++ " 条），拒绝写入键: " ++ key
  | redisConnecting => "正在连接 Redis 服务器"
  | redisConnected => "Redis 连接建立成功"
  | cacheWritten key => "缓存设置成功: " ++ key
  | databaseConnecting url => "正在连接数据库: " ++ url
  | databaseConnected => "数据库连接成功"
  | directoryCreated path => "创建数据库目录: " ++ path
  | fileCreated path => "数据库文件创建成功: " ++ path
  | migrationStarted => "开始运行数据库迁移..."
  | migrationDone => "数据库迁移完成"
  | migrationFailed reason => "数据库迁移失败: " ++ reason
  | migrationsPending count => "有 " ++ showNat count ++ " 个待应用的迁移"
  | signedIn user => "用户 " ++ showInt user ++ " 登录成功"
  | passwordMismatch username => username ++ " 密码校验失败"
  | registered user username =>
    "通过验证码注册新用户 " ++ showInt user ++ " (" ++ username ++ ")"
  | profileReceived provider => provider ++ " 返回用户资料"
  | codeExchanged => "Google 授权码交换成功"
  | signedOut target actor =>
    "用户 " ++ showInt target ++ " 已被强制下线 (操作者 " ++ showInt actor ++ ")"
  | passwordChanged user => "用户 " ++ showInt user ++ " 已修改密码"
  | tokenIssued user role limited =>
    "为用户 " ++ showInt user ++ " 签发令牌对 (role=" ++ role.name ++ ", limited=" ++ truth limited
      ++ ")"
  | refreshMismatch user => "刷新令牌中的用户 " ++ showInt user ++ " 与缓存记录不一致"
  | tokenRefreshed user => "用户 " ++ showInt user ++ " 的刷新令牌已轮换"
  | otpRequested username purpose => "已为 " ++ username ++ " 生成验证码 (" ++ purpose.title ++ ")"
  | otpVerified username => username ++ " 验证码校验通过"
  | otpMismatch username retries limit =>
    username ++ " 验证码错误 (" ++ showInt retries ++ "/" ++ showInt limit ++ ")"
  | otpLocked username => username ++ " 的验证码已锁定"
  | deliveryFailed recipient error => "验证码投递失败 (" ++ recipient ++ "): " ++ error.message
  | smsLogged recipient size => "短信投递 -> " ++ recipient ++ " (" ++ showNat size ++ " 字节)"
  | emailLogged recipient subject size =>
    "邮件投递 -> " ++ recipient ++ ": " ++ subject ++ " (" ++ showNat size ++ " 字节)"
  | webhookDelivered channel => channel.title ++ "投递成功"
  | groupMissing user name => "用户 " ++ showInt user ++ " 引用的分组不存在: " ++ name
  | permissionDenied user entity rule =>
    "用户 " ++ showInt user ++ " 缺少权限 " ++ entity ++ ":" ++ rule
  | groupCreated name => "分组已创建: " ++ name
  | groupUpdated name => "分组已更新: " ++ name
  | groupsDeleted deleted kept =>
    "已删除 " ++ showNat deleted ++ " 个分组，保留 " ++ showNat kept ++ " 个"
  | defaultConfig path => "配置文件不存在，使用默认配置: " ++ path
  | overridden what => "应用环境变量覆盖: " ++ what
  | configReady cache testMode => "配置加载完成: " ++ configSummary cache testMode
  | configLoaded cache testMode => "配置已加载 (" ++ configSummary cache testMode ++ ")"
  | configChecked cacheKind => "配置有效，缓存后端 " ++ cacheKind ++ " 可用"
  | migrationComplete => "数据库初始化完成"
  | commandFailed error => "命令执行失败: " ++ error.message

/-- The name under which the program logs its own work. -/
def requestId : String := "system"

/-- The fields of an event. -/
def toJson (e : Event) : Json :=
  let source := match e.origin? with
    | some o =>
      [("request_id", .string requestId), ("stage", .string o.stage.name),
       ("component", .string o.component.name), ("operation", .string o.operation)]
    | none => []
  .object (source ++ [("message", .string e.message), ("level", .string e.level.name)])

end Event

end AuthCore
