import SimpleLedger.Bytes

namespace SimpleLedger

/-- The kinds of token. -/
inductive TokenType where
  | fungible
  | nft1Child
  | nft1Group
deriving DecidableEq

namespace TokenType

/-- The byte that stands for a token type in a message. -/
def code : TokenType → UInt8
  | fungible => 0x01
  | nft1Child => 0x41
  | nft1Group => 0x81

def ofCode? (n : Nat) : Option TokenType :=
  [fungible, nft1Child, nft1Group].find? fun t => t.code.toNat == n

def name : TokenType → String
  | fungible => "Fungible"
  | nft1Child => "NFT1Child"
  | nft1Group => "NFT1Group"

end TokenType

/-- The kinds of transaction that a message can announce. A commit is known by its tag only. -/
inductive TransactionType where
  | genesis
  | mint
  | send
  | commit
deriving DecidableEq

namespace TransactionType

/-- The letters of a transaction type's tag. -/
def letters : TransactionType → List Char
  | genesis => ['G', 'E', 'N', 'E', 'S', 'I', 'S']
  | mint => ['M', 'I', 'N', 'T']
  | send => ['S', 'E', 'N', 'D']
  | commit => ['C', 'O', 'M', 'M', 'I', 'T']

/-- The tag of a transaction type as text. -/
def name (t : TransactionType) : String :=
  String.ofList t.letters

theorem name_inj {t u : TransactionType} : t.name = u.name ↔ t = u := by
  cases t <;> cases u <;> simp [name, letters]

/-- The tag of a transaction type as it stands in a script. -/
def tag (t : TransactionType) : Bytes :=
  t.letters.map Char.toUInt8

/-- The transaction type with exactly this tag. -/
def ofTag? (bytes : Bytes) : Option TransactionType :=
  [genesis, mint, send, commit].find? fun t => t.tag == bytes

end TransactionType

/-- A token id: 32 bytes, in the order in which they are pushed. -/
structure TokenId where
  bytes : Bytes
  length_eq : bytes.length = 32
deriving DecidableEq

/-- The token id made of some bytes, if there are 32 of them. -/
def TokenId.ofBytes? (bytes : Bytes) : Option TokenId :=
  if h : bytes.length = 32 then some ⟨bytes, h⟩ else none

/-- The fields of a genesis. No baton output means that nothing can be minted later. -/
structure Genesis where
  ticker : Bytes
  name : Bytes
  documentUri : Bytes
  documentHash : Bytes
  decimals : UInt8
  mintBatonVout : Option UInt8
  initialQuantity : UInt64
deriving DecidableEq

structure Mint where
  tokenId : TokenId
  mintBatonVout : Option UInt8
  additionalQuantity : UInt64
deriving DecidableEq

/-- The fields of a send: a quantity for each output from the first on. -/
structure Send where
  tokenId : TokenId
  outputQuantities : List UInt64
deriving DecidableEq

inductive Action where
  | genesis (fields : Genesis)
  | mint (fields : Mint)
  | send (fields : Send)
deriving DecidableEq

/-- The transaction type that announces an action. -/
def Action.transactionType : Action → TransactionType
  | genesis _ => .genesis
  | mint _ => .mint
  | send _ => .send

/-- A token message. -/
structure Message where
  tokenType : TokenType
  action : Action
deriving DecidableEq

/-- The transaction type that a message announces. -/
def Message.transactionType (message : Message) : TransactionType :=
  message.action.transactionType

end SimpleLedger
