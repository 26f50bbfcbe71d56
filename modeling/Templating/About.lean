/-!
# About

The version and the texts by which the parts without state show themselves.
-/

namespace Templating.About

def version : String := "0.1.0"

def parserText : String := "<TemplateParser>"

def fileLoaderText : String := "<FileSystemLoader>"

def encoderText : String := "<DataEncoder>"

end Templating.About
