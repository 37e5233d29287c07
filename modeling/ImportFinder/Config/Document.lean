import ImportFinder.Config
import ImportFinder.Yaml.Decode

/-!
# Configurations as YAML documents

A configuration is a mapping with a field for each setting. Other fields are passed
over, and the same field may not be given twice.
-/

namespace ImportFinder.Config

/-- The fields of the file. -/
def fields : List Text :=
  ["root", "mode", "format", "ignore_file", "ignore", "extensions", "extension_map"].map text

/-- Takes over the value of a field. Other fields are passed over. -/
def setField (s : Yaml.Scope) (c : Config) (name : Text) (n : Yaml.Node) : Yaml.Decode Config := do
  if name = text "root" then return { c with root := (← s.text? n).getD c.root }
  else if name = text "mode" then return { c with mode := (← s.text? n).getD c.mode }
  else if name = text "format" then return { c with format := (← s.text? n).getD c.format }
  else if name = text "ignore_file" then
    return { c with ignoreFile := (← s.text? n).getD c.ignoreFile }
  else if name = text "ignore" then return { c with ignore := (← s.list? n).getD c.ignore }
  else if name = text "extensions" then
    return { c with extensions := (← s.list? n).getD c.extensions }
  else if name = text "extension_map" then
    return { c with extensionMap := ← s.table n c.extensionMap }
  else return c

/-- How a configuration is read from YAML. -/
def receiver : Yaml.Receiver Config where
  owner := text "config.ProjectConfig"
  once := fields.contains
  accept := setField

/-- The configuration that a document gives, or what is wrong with it. -/
def parse (content : Text) : Except Text Config := receiver.decode content {}

end ImportFinder.Config
