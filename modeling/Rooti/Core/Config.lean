/-!
# The settings of the connections

Where the database and Redis are, and the credentials for them, as environment variables give
them.  Both are handed over as URLs.

## Main definitions

* `ConnectionSettings` — the settings
* `databaseUrl`, `redisUrl` — the URLs
-/

namespace Rooti

/-- `Settings`: the fields that the URLs are made of. -/
structure ConnectionSettings where
  dbHost : String
  dbPort : Int := 5432
  dbName : String
  dbUsername : String
  dbPassword : String
  dbSslRequired : Bool := true
  redisHost : String := "localhost"
  redisPort : Int := 6379
  redisPassword : Option String := none

namespace ConnectionSettings

/-- `database_url`. -/
def databaseUrl (settings : ConnectionSettings) : String :=
  let ssl := if settings.dbSslRequired then "?ssl=require" else ""
  "postgresql+asyncpg://" ++ settings.dbUsername ++ ":" ++ settings.dbPassword ++ "@" ++ settings.dbHost ++
    ":" ++ toString settings.dbPort ++ "/" ++ settings.dbName ++ ssl

/-- The password for Redis; an empty one counts as none. -/
def redisSecret (settings : ConnectionSettings) : Option String :=
  settings.redisPassword.filter fun password => password ≠ ""

/-- `redis_url`. -/
def redisUrl (settings : ConnectionSettings) : String :=
  let auth := match settings.redisSecret with
    | some password => ":" ++ password ++ "@"
    | none => ""
  "redis://" ++ auth ++ settings.redisHost ++ ":" ++ toString settings.redisPort ++ "/0"

end ConnectionSettings

end Rooti
