namespace QueryPipeline

inductive LogLevel where
  | debug
  | info
deriving DecidableEq

def LogLevel.name : LogLevel → String
  | .debug => "DEBUG"
  | .info => "INFO"

structure LogLine where
  level : LogLevel
  channel : String
  message : String

end QueryPipeline
