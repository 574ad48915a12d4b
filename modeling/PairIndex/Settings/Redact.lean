import PairIndex.Settings.Basic

/-! A summary of the settings without their secrets. -/

namespace PairIndex

/-- The number of characters before the first occurrence of a part. -/
def indexOf? (part : List Char) : List Char → Option Nat
  | [] => if part.isEmpty then some 0 else none
  | c :: rest => if part.isPrefixOf (c :: rest) then some 0 else (indexOf? part rest).map (· + 1)

/-- An address with stars for its password. What stands between the scheme and the first at sign is a user name, and after
a colon a password; an address without these three marks in this order is left as it is. -/
def redactUrl (url : String) : String :=
  let chars := url.toList
  match indexOf? "://".toList chars, indexOf? ['@'] chars with
  | some scheme, some sign =>
    let start := scheme + 3
    let credentials := (chars.take sign).drop start
    if credentials.contains ':' then
      String.ofList (chars.take start ++ credentials.takeWhile (· != ':')) ++ ":***@" ++
        String.ofList (chars.drop (sign + 1))
    else url
  | _, _ => url

/-- The word for a truth value in a summary. -/
def truthWord (b : Bool) : String :=
  if b then "True" else "False"

/-- A text, or a remark if it is empty. -/
def orNotSet (text : String) : String :=
  if text.isEmpty then "(not set)" else text

namespace Settings

/-- What may be shown of the settings. -/
def summary (s : Settings) : Json :=
  .obj [("database_url", .str (redactUrl s.database.url)),
    ("redis_url", .str (orNotSet (redactUrl (s.cache.url.getD "")))),
    ("solana", .obj [("rpc_url", .str (redactUrl s.ledger.rpcUrl)),
      ("ws_url", .str (redactUrl s.ledger.effectiveFeedUrl)), ("commitment", .str s.ledger.commitment)]),
    ("indexer", .obj [("program_addresses", .str (orNotSet (",".intercalate s.indexing.addresses))),
      ("concurrency", .str (Number.integerText s.indexing.concurrency)),
      ("gap_fill_interval_seconds", .str (Number.integerText s.indexing.gapFillInterval)),
      ("skip_backfill", .str (truthWord s.indexing.skipBackfill))]),
    ("log_level", .str s.logLevel.name), ("control_port", .str (Number.integerText s.controlPort))]

end Settings
end PairIndex
