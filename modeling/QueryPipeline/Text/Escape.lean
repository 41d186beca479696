namespace QueryPipeline.Text

def patternSpecials : List Char :=
  "()[]\x7b\x7d?*+-|^$\\.&~# \t\n\r\x0b\x0c".toList

def escapePattern (s : String) : String :=
  String.ofList (s.toList.flatMap fun c => if patternSpecials.contains c then ['\\', c] else [c])

end QueryPipeline.Text
