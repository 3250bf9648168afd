import CommandContract.FileTree

set_option autoImplicit false

/-!
# Failures to load

The causes for which a descriptor tree or a configuration is refused.
-/
namespace CommandContract

inductive DescriptorFault where
  | notJson
  | notObject (kind : String)
  deriving DecidableEq, Repr

def DescriptorFault.message : DescriptorFault → String
  | notJson => "the text is not valid JSON"
  | notObject kind => "expected a JSON object, found " ++ kind

inductive LinkFault where
  | empty (directory : String)
  | absolute (link directory : String)
  | escapes (link directory : String)
  | unresolved (link : String) (cause : FileError)
  | outside (link base : String)
  | notDirectory (link : String)
  | cycle (link target : String)
  deriving DecidableEq, Repr

def LinkFault.message : LinkFault → String
  | empty directory => "empty path declared in " ++ directory
  | absolute link directory =>
    "'" ++ link ++ "' is absolute; links must be relative to " ++ directory
  | escapes link directory => "'" ++ link ++ "' escapes " ++ directory
  | unresolved link cause => "cannot resolve '" ++ link ++ "': " ++ cause.message
  | outside link base => "'" ++ link ++ "' resolves outside " ++ base
  | notDirectory link => "'" ++ link ++ "' is not a directory"
  | cycle link target => "'" ++ link ++ "' links back to " ++ target

inductive ConfigFault where
  | malformed
  /-- a key with too many parts, which is reported without a place -/
  | deepKey
  | zeroDepth
  | depthNotNumber (text : String)
  | missingFile (path : String)
  deriving DecidableEq, Repr

def ConfigFault.message : ConfigFault → String
  | malformed => "TOML parse error: the text is not a valid configuration"
  | deepKey => "recursion limit\n"
  | zeroDepth => "engine.max_chain_depth must be at least 1"
  | depthNotNumber text =>
    "CARAPACE_MAX_CHAIN_DEPTH must be a positive integer, got '" ++ text ++ "'"
  | missingFile path => "config file " ++ path ++ " does not exist"

inductive LoadError where
  | file (cause : FileError)
  | missingDescriptor (path : String)
  | invalidDescriptor (path : String) (fault : DescriptorFault)
  | link (fault : LinkFault)
  /-- with the file that the fault was found in, if it was read from one -/
  | config (source : Option String) (fault : ConfigFault)
  deriving DecidableEq, Repr

def LoadError.message : LoadError → String
  | file cause => "I/O error: " ++ cause.message
  | missingDescriptor path => "Missing required descriptor: " ++ path
  | invalidDescriptor path fault => "Invalid descriptor " ++ path ++ ": " ++ fault.message
  | link fault => "Path error: " ++ fault.message
  | config none fault => "Config error: " ++ fault.message
  | config (some path) fault => "Config error: " ++ path ++ ": " ++ fault.message

end CommandContract
