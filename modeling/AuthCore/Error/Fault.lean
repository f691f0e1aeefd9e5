import AuthCore.Text.Integer

/-!
# Faults

Causes of failure outside the domain: the configuration, the database, the cache, the network, a
serialised form, or the program itself. Every cause has one text, and says whether it stems from an
error of a lower layer.
-/

namespace AuthCore

open Text (showInt showNat)

/-- A message given by the caller, and whether a lower layer caused it. -/
structure Stated where
  /-- The message. -/
  message : String
  /-- Whether a lower layer caused it. -/
  caused : Bool
  deriving DecidableEq, Repr

/-- What is wrong with the configuration. -/
inductive ConfigFault where
  | emptySecret
  | unsupportedAlgorithm (name : String)
  | invalid (rule : String)
  | fileMissing (path : String)
  | fileUnreadable (path : String)
  | fileMalformed (path : String)
  | textMalformed
  | testModeValue (value : String)
  | databaseDirectory (path : String)
  | databaseFile (path : String)
  | invalidUrl (url : String)
  | noEndpoint (channel : String)
  | stated (s : Stated)
  deriving DecidableEq, Repr

namespace ConfigFault

/-- The text of a fault. -/
def message : ConfigFault → String
  | emptySecret => "jwt.secret_key must not be empty"
  | unsupportedAlgorithm name => "Unsupported JWT algorithm: " ++ name
  | invalid rule => rule
  | fileMissing path => "配置文件不存在: " ++ path
  | fileUnreadable path => "读取配置文件失败: " ++ path
  | fileMalformed path => "TOML解析失败 - 配置文件: " ++ path
  | textMalformed => "TOML 解析失败"
  | testModeValue value => "COMMERCE_AUTH_OTP_TEST_MODE 取值无效: " ++ value
  | databaseDirectory path => "无法创建数据库目录: " ++ path
  | databaseFile path => "无法创建数据库文件: " ++ path
  | invalidUrl url => "无效的地址: " ++ url
  | noEndpoint channel => "未配置" ++ channel ++ "投递地址"
  | stated s => s.message

/-- Whether a lower layer caused the fault. -/
def caused : ConfigFault → Bool
  | fileUnreadable _ | fileMalformed _ | textMalformed | testModeValue _ | databaseDirectory _
  | databaseFile _ | invalidUrl _ => true
  | stated s => s.caused
  | _ => false

end ConfigFault

/-- What is wrong with the database or with what it holds. -/
inductive DatabaseFault where
  | duplicateUser
  | invalidRole (id : Int) (text : String)
  | invalidStatus (id : Int) (text : String)
  | invalidLoginType (id : Int) (text : String)
  | findUser (sought : String)
  | createUser
  | updateUser (id : Int)
  | countGroups
  | findGroups
  | findGroup (name : String)
  | createGroup
  | updateGroup (name : String)
  | deleteGroups
  | findEntity (name : String)
  | listEntities
  | createEntity
  | updateEntity
  | connect
  | migrate
  | migrationStatus
  | operation
  | stated (s : Stated)
  deriving DecidableEq, Repr

namespace DatabaseFault

/-- The text of a fault. -/
def message : DatabaseFault → String
  | duplicateUser => "用户邮箱或手机号已存在"
  | invalidRole id text => "用户 " ++ showInt id ++ " 的角色无效: " ++ text
  | invalidStatus id text => "用户 " ++ showInt id ++ " 的状态无效: " ++ text
  | invalidLoginType id text => "用户 " ++ showInt id ++ " 的登录方式无效: " ++ text
  | findUser sought => "查询用户失败: " ++ sought
  | createUser => "创建用户失败"
  | updateUser id => "更新用户失败: " ++ showInt id
  | countGroups => "查询用户分组失败"
  | findGroups => "查询分组失败"
  | findGroup name => "查询分组失败: " ++ name
  | createGroup => "创建分组失败"
  | updateGroup name => "更新分组失败: " ++ name
  | deleteGroups => "删除分组失败"
  | findEntity name => "查询实体失败: " ++ name
  | listEntities => "查询实体目录失败"
  | createEntity => "创建实体失败"
  | updateEntity => "更新实体失败"
  | connect => "数据库连接失败"
  | migrate => "数据库迁移失败"
  | migrationStatus => "查询迁移状态失败"
  | operation => "数据库操作失败"
  | stated s => s.message

/-- Whether a lower layer caused the fault. -/
def caused : DatabaseFault → Bool
  | duplicateUser | invalidRole _ _ | invalidStatus _ _ | invalidLoginType _ _ => false
  | stated s => s.caused
  | _ => true

end DatabaseFault

/-- What is wrong with the cache or with what it holds. -/
inductive CacheFault where
  /-- The memory cache holds as many live entries as it may. -/
  | full (capacity : Nat)
  /-- The entry is of the other kind, a hash or a plain value. -/
  | kindMismatch (key : String)
  | unwritable
  | unreadable
  | notInteger (field : String)
  | emptyHash
  | set (key : String)
  | get (key : String)
  | delete (key : String)
  | exists
  | expire
  | createHash (key : String)
  | readHash (key : String)
  | increment (key : String)
  | check (key : String)
  | compare (key : String)
  | ping
  | client
  | connect
  | connectTimeout (seconds : Nat)
  | operation
  | stated (s : Stated)
  deriving DecidableEq, Repr

namespace CacheFault

/-- The text of a fault. -/
def message : CacheFault → String
  | full capacity => "内存缓存已满（" ++ showNat capacity ++ " 条）"
  | kindMismatch key => "缓存键类型不匹配: " ++ key
  | unwritable => "序列化缓存值失败"
  | unreadable => "反序列化缓存值失败"
  | notInteger field => "哈希字段不是整数: " ++ field
  | emptyHash => "哈希字段不能为空"
  | set key => "设置缓存失败: " ++ key
  | get key => "获取缓存失败: " ++ key
  | delete key => "删除缓存失败: " ++ key
  | .exists => "Redis EXISTS失败"
  | expire => "Redis EXPIRE失败"
  | createHash key => "创建哈希失败: " ++ key
  | readHash key => "读取哈希失败: " ++ key
  | increment key => "哈希字段自增失败: " ++ key
  | check key => "哈希字段核对失败: " ++ key
  | compare key => "比较删除失败: " ++ key
  | ping => "Redis PING失败"
  | client => "创建 Redis 客户端失败"
  | connect => "建立 Redis 连接失败"
  | connectTimeout seconds => "连接 Redis 超时（" ++ showNat seconds ++ "s）"
  | operation => "Redis 操作失败"
  | stated s => s.message

/-- Whether a lower layer caused the fault. -/
def caused : CacheFault → Bool
  | full _ | kindMismatch _ | emptyHash | connectTimeout _ => false
  | stated s => s.caused
  | _ => true

end CacheFault

/-- What is wrong with an outer service. -/
inductive NetworkFault where
  | failed
  | providerStatus (provider status : String)
  | deliveryStatus (channel status : String)
  | audience
  | stated (s : Stated)
  deriving DecidableEq, Repr

namespace NetworkFault

/-- The text of a fault. -/
def message : NetworkFault → String
  | failed => "外部请求失败"
  | providerStatus provider status => provider ++ " 返回错误状态 " ++ status
  | deliveryStatus channel status => channel ++ "投递失败，网关返回 " ++ status
  | audience => "Google ID 令牌的受众不匹配"
  | stated s => s.message

/-- Whether a lower layer caused the fault. -/
def caused : NetworkFault → Bool
  | failed => true
  | stated s => s.caused
  | _ => false

end NetworkFault

/-- What is wrong with a serialised form; a lower layer always caused it. -/
inductive SerializationFault where
  | readColumn (column : String)
  | json
  | stated (message : String)
  deriving DecidableEq, Repr

/-- The text of a fault. -/
def SerializationFault.message : SerializationFault → String
  | readColumn column => "无法解析 JSON 列 " ++ column
  | json => "JSON 处理失败"
  | stated message => message

/-- What is wrong inside the program. -/
inductive InternalFault where
  | passwordHash
  | io
  | stated (s : Stated)
  deriving DecidableEq, Repr

namespace InternalFault

/-- The text of a fault. -/
def message : InternalFault → String
  | passwordHash => "密码哈希失败"
  | io => "IO 操作失败"
  | stated s => s.message

/-- Whether a lower layer caused the fault. -/
def caused : InternalFault → Bool
  | stated s => s.caused
  | _ => true

end InternalFault

end AuthCore
