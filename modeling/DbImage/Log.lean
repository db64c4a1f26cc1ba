/-!
What happens on the way, for whoever wants to watch. An event says what happened; its level and its
line follow from that.
-/

namespace DbImage

inductive Level where
  | debug
  | info
  | warning
  deriving DecidableEq, Repr

namespace Level

def text : Level → String
  | debug => "DEBUG"
  | info => "INFO"
  | warning => "WARNING"

def rank : Level → Nat
  | debug => 0
  | info => 1
  | warning => 2

end Level

inductive Event where
  /-- A statement of an env file that starts on this line could not be read. -/
  | badStatement (line : Nat)
  | variablesLoaded (count : Nat) (path : String)
  | parsingConfig (path : String)
  | readingSource (path : String)
  | staged (name target : String)
  | built (imageRef : String)
  | composeWritten (imageRef path : String)
  deriving DecidableEq, Repr

namespace Event

def level : Event → Level
  | badStatement _ => .warning
  | composeWritten _ _ => .info
  | _ => .debug

/-- The part of the program that an event belongs to. -/
def origin : Event → String
  | badStatement _ => "dotenv.main"
  | variablesLoaded _ _ => "tcimages.PARSERS.image_config_parser"
  | parsingConfig _ => "tcimages.PARSERS.image_config_parser"
  | readingSource _ => "tcimages.MODELS.copy_to_container"
  | staged _ _ => "tcimages.CONVERTERS.to_compose"
  | built _ => "tcimages.CLI.main"
  | composeWritten _ _ => "tcimages.CONVERTERS.to_compose"

def text : Event → String
  | badStatement line =>
    "python-dotenv could not parse statement starting at line " ++ toString line
  | variablesLoaded count path => "Loaded " ++ toString count ++ " variables from " ++ path
  | parsingConfig path => "Parsing image config " ++ path
  | readingSource path => "Reading staged content from " ++ path
  | staged name target => "Staged " ++ name ++ " for " ++ target
  | built imageRef => "Built " ++ imageRef
  | composeWritten imageRef path => "Compose file for " ++ imageRef ++ " written to " ++ path

def line (e : Event) : String :=
  e.level.text ++ " " ++ e.origin ++ ": " ++ e.text ++ "\n"

end Event
end DbImage
