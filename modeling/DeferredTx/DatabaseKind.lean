/-!
# Kinds of databases

The kind of a database is told by how its address begins. It decides which SQL dialect a script is
read in.
-/

namespace DeferredTx

/-- The databases an address can name. -/
inductive DatabaseKind where
  | postgres
  | mysql
  | mariadb
  | sqlite
  deriving DecidableEq, Repr

namespace DatabaseKind

/-- The product's name. -/
def display : DatabaseKind → String
  | postgres => "PostgreSQL"
  | mysql => "MySQL"
  | mariadb => "MariaDB"
  | sqlite => "SQLite"

/-- The name used in stored data. -/
def tag : DatabaseKind → String
  | postgres => "Postgres"
  | mysql => "MySQL"
  | mariadb => "MariaDB"
  | sqlite => "SQLite"

/-- The beginnings of addresses, with the kind that each stands for. -/
def schemes : List (String × DatabaseKind) :=
  [("postgres://", postgres), ("postgresql://", postgres), ("mysql://", mysql),
   ("mariadb://", mariadb), ("sqlite:", sqlite), ("file:", sqlite)]

/-- The kind of database that an address names; case matters. -/
def ofUrl? (url : String) : Option DatabaseKind :=
  (schemes.find? fun s => s.1.toList.isPrefixOf url.toList).map (·.2)

/-- The kind whose tag this is. -/
def ofTag? (tag : String) : Option DatabaseKind :=
  [postgres, mysql, mariadb, sqlite].find? fun k => k.tag == tag

end DatabaseKind
end DeferredTx
