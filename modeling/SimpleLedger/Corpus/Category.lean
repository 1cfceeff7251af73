import SimpleLedger.Json
import SimpleLedger.Message

namespace SimpleLedger.Corpus

/-- A category of messages. `all` takes everything the indexer knows. -/
inductive Category where
  | invalid
  | genesis
  | mint
  | send
  | all
deriving DecidableEq

namespace Category

/-- The categories in the order in which they are sampled. -/
def ordered : List Category :=
  [invalid, genesis, mint, send, all]

def name : Category → String
  | invalid => "invalid"
  | genesis => "genesis"
  | mint => "mint"
  | send => "send"
  | all => "all"

/-- The category with a given name, in ASCII letters of either case. -/
def ofName? (text : String) : Option Category :=
  ordered.find? fun category => category.name.toList == text.toList.map Char.toLower

/-- What is said of a name that no category has. -/
def unknownText (text : String) : String :=
  s!"unknown category '{text}' (expected one of: invalid, genesis, mint, send, all)"

/-- Whether a category is sampled up to the broad limit. -/
def isBroad (category : Category) : Bool :=
  category == all

/-- What an indexer has to look for to find valid messages of a transaction type. -/
def findValid (transactionType : TransactionType) : Json :=
  .obj [("slp.detail.transactionType", .str transactionType.name), ("slp.valid", .bool true)]

/-- What an indexer has to look for to find the messages of a category. -/
def find : Category → Json
  | invalid => .obj [("slp.valid", .bool false)]
  | genesis => findValid .genesis
  | mint => findValid .mint
  | send => findValid .send
  | all => .obj []

/-- What an indexer knows of a message, by the names that a find clause may ask for. -/
def indexed (valid : Bool) (transactionType : TransactionType) : List (String × Json) :=
  [("slp.detail.transactionType", .str transactionType.name), ("slp.valid", .bool valid)]

/-- Whether a message belongs to a category. -/
def Includes (valid : Bool) (transactionType : TransactionType) : Category → Prop
  | invalid => valid = false
  | genesis => valid = true ∧ transactionType = .genesis
  | mint => valid = true ∧ transactionType = .mint
  | send => valid = true ∧ transactionType = .send
  | all => True

theorem findValid_iff (wanted : TransactionType) (valid : Bool)
    (transactionType : TransactionType) :
    (∃ asked, findValid wanted = .obj asked ∧ asked ⊆ indexed valid transactionType) ↔
      valid = true ∧ transactionType = wanted := by
  constructor
  · rintro ⟨asked, same, inside⟩
    obtain rfl := Json.obj.inj same
    obtain ⟨type, valid⟩ : wanted = transactionType ∧ true = valid := by
      simpa [indexed, TransactionType.name_inj] using inside
    exact ⟨valid.symm, type.symm⟩
  · rintro ⟨rfl, rfl⟩
    exact ⟨_, rfl, List.Subset.refl _⟩

/-- The find clause of a category asks for the messages that belong to it and for no others. -/
theorem find_iff (category : Category) (valid : Bool) (transactionType : TransactionType) :
    (∃ asked, category.find = .obj asked ∧ asked ⊆ indexed valid transactionType) ↔
      category.Includes valid transactionType := by
  cases category with
  | invalid => cases valid <;> simp [find, indexed, Includes]
  | genesis => exact findValid_iff _ _ _
  | mint => exact findValid_iff _ _ _
  | send => exact findValid_iff _ _ _
  | all => simp [find, Includes]

theorem find_inj {category other : Category} : category.find = other.find ↔ category = other := by
  cases category <;> cases other <;> simp [find, findValid, TransactionType.name_inj]

end Category

/-- One step of a sampling: a category, and how many ids of it are wanted at most. -/
structure Step where
  category : Category
  limit : Nat
deriving DecidableEq

/-- The plan that samples every category in order. -/
def plan (narrow broad : Nat) : List Step :=
  Category.ordered.map fun category =>
    { category, limit := if category.isBroad then broad else narrow }

end SimpleLedger.Corpus
