import PairIndex.Command.Arguments

/-! What the program says when it is asked for help. -/

namespace PairIndex

/-- The line of an option that explains itself. -/
def helpOption (gap : String) : String :=
  "  -h, --help" ++ gap ++ "show this help message and exit"

/-- The help on the program as a whole. -/
def generalHelp : List String :=
  ["usage: omnipair-indexer [-h] \x7brun,backfill,gap-fill,init-db\x7d ...",
    "",
    "Omnipair ledger indexer",
    "",
    "positional arguments:",
    "  \x7brun,backfill,gap-fill,init-db\x7d",
    "    run                 Backfill, subscribe and gap-fill until interrupted",
    "    backfill            Run one backfill pass",
    "    gap-fill            Run one gap fill pass",
    "    init-db             Create tables directly (development only; use alembic",
    "                        otherwise)",
    "",
    "options:",
    helpOption "            "]

def CommandName.help : CommandName → List String
  | .run => ["usage: omnipair-indexer run [-h]", "", "options:", helpOption "  "]
  | .initDb => ["usage: omnipair-indexer init-db [-h]", "", "options:", helpOption "  "]
  | .gapFill =>
    ["usage: omnipair-indexer gap-fill [-h] [--address ADDRESS]",
      "",
      "options:",
      helpOption "         ",
      "  --address ADDRESS  Watched address (default: all)"]
  | .backfill =>
    ["usage: omnipair-indexer backfill [-h] [--address ADDRESS]",
      "                                 [--from-slot FROM_SLOT] [--to-slot TO_SLOT]",
      "                                 [--batch-size BATCH_SIZE] [--reprocess]",
      "",
      "options:",
      helpOption "            ",
      "  --address ADDRESS     Watched address (default: all)",
      "  --from-slot FROM_SLOT",
      "  --to-slot TO_SLOT",
      "  --batch-size BATCH_SIZE",
      "  --reprocess           Ignore the watermark and walk all history"]

/-- What is printed in place of doing a command. -/
def NoCommand.lines : NoCommand → List String
  | .help none => generalHelp
  | .help (some name) => name.help
  | .misuse => []

end PairIndex
