/-!
# Relations between entities

Four kinds of relation tie one entity to another. The side that many records share a partner on may
own a join column, which holds the key of the partner.
-/

namespace CompanyRegister

/-- How many records of either side belong together. -/
inductive RelationKind
  | manyToOne
  | oneToMany
  | oneToOne
  | manyToMany
  deriving DecidableEq, Repr

namespace RelationKind

def all : List RelationKind := [manyToOne, oneToMany, oneToOne, manyToMany]

/-- The name of the decorator of a kind. -/
def name : RelationKind → String
  | manyToOne => "ManyToOne"
  | oneToMany => "OneToMany"
  | oneToOne => "OneToOne"
  | manyToMany => "ManyToMany"

end RelationKind

end CompanyRegister
