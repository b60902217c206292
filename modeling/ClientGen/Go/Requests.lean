/-!
# The request code of a Go client

The same file belongs to every client: the type `Client`, which sends requests, and the type
`APIError`, which every response outside the 2xx range becomes.

* `clientNames` — the names that the file declares in the package.
* `clientFile` — its text after the header.
-/

namespace ClientGen.Go

/-- The names that the request code declares in the package. -/
def clientNames : List String :=
  ["APIError", "Client", "NewClient", "decodeBody", "encodeBody", "formValues"]

/-- The lines of the request code. -/
def clientLines : List String := [
  "package gen",
  "",
  "import (",
  "\t\"bytes\"",
  "\t\"encoding/json\"",
  "\t\"fmt\"",
  "\t\"io\"",
  "\t\"mime/multipart\"",
  "\t\"net/http\"",
  "\t\"net/url\"",
  "\t\"strings\"",
  ")",
  "",
  "// Client sends requests to one API deployment.",
  "type Client struct \x7b",
  "\tBaseURL    string",
  "\tHTTPClient *http.Client",
  "\tHeaders    map[string]string",
  "\x7d",
  "",
  "// NewClient returns a Client for baseURL that uses http.DefaultClient.",
  "func NewClient(baseURL string) *Client \x7b",
  "\treturn &Client\x7b",
  "\t\tBaseURL:    strings.TrimRight(baseURL, \"/\"),",
  "\t\tHTTPClient: http.DefaultClient,",
  "\t\tHeaders:    map[string]string\x7b\x7d,",
  "\t\x7d",
  "\x7d",
  "",
  "// APIError is returned for every response outside the 2xx range.",
  "type APIError struct \x7b",
  "\tStatusCode int",
  "\tStatus     string",
  "\tBody       []byte",
  "\x7d",
  "",
  "func (e *APIError) Error() string \x7b",
  "\treturn fmt.Sprintf(\"HTTP %d: %s\", e.StatusCode, e.Status)",
  "\x7d",
  "",
  "// Request sends one request. A non-nil body is encoded for contentType and",
  "// the response is decoded into out according to responseKind.",
  "func (c *Client) Request(method, path string, query url.Values, headers map[string]string, " ++
    "body any, contentType string, out any, responseKind string) error \x7b",
  "\ttarget := c.BaseURL + path",
  "\tif len(query) > 0 \x7b",
  "\t\ttarget += \"?\" + query.Encode()",
  "\t\x7d",
  "",
  "\tvar payload io.Reader",
  "\tif body != nil \x7b",
  "\t\tencoded, actualType, err := encodeBody(body, contentType)",
  "\t\tif err != nil \x7b",
  "\t\t\treturn err",
  "\t\t\x7d",
  "\t\tpayload = encoded",
  "\t\tcontentType = actualType",
  "\t\x7d",
  "",
  "\treq, err := http.NewRequest(method, target, payload)",
  "\tif err != nil \x7b",
  "\t\treturn err",
  "\t\x7d",
  "\tif payload != nil && contentType != \"\" \x7b",
  "\t\treq.Header.Set(\"Content-Type\", contentType)",
  "\t\x7d",
  "\tfor key, value := range c.Headers \x7b",
  "\t\treq.Header.Set(key, value)",
  "\t\x7d",
  "\tfor key, value := range headers \x7b",
  "\t\treq.Header.Set(key, value)",
  "\t\x7d",
  "",
  "\thttpClient := c.HTTPClient",
  "\tif httpClient == nil \x7b",
  "\t\thttpClient = http.DefaultClient",
  "\t\x7d",
  "\tresp, err := httpClient.Do(req)",
  "\tif err != nil \x7b",
  "\t\treturn err",
  "\t\x7d",
  "\tdefer resp.Body.Close()",
  "",
  "\tdata, err := io.ReadAll(resp.Body)",
  "\tif err != nil \x7b",
  "\t\treturn err",
  "\t\x7d",
  "\tif resp.StatusCode < 200 || resp.StatusCode >= 300 \x7b",
  "\t\treturn &APIError\x7bStatusCode: resp.StatusCode, Status: resp.Status, Body: data\x7d",
  "\t\x7d",
  "\treturn decodeBody(data, out, responseKind)",
  "\x7d",
  "",
  "func encodeBody(body any, contentType string) (io.Reader, string, error) \x7b",
  "\tswitch b := body.(type) \x7b",
  "\tcase []byte:",
  "\t\treturn bytes.NewReader(b), contentType, nil",
  "\tcase string:",
  "\t\treturn strings.NewReader(b), contentType, nil",
  "\t\x7d",
  "",
  "\tswitch \x7b",
  "\tcase strings.HasPrefix(contentType, \"multipart/\"):",
  "\t\tfields, err := formValues(body)",
  "\t\tif err != nil \x7b",
  "\t\t\treturn nil, \"\", err",
  "\t\t\x7d",
  "\t\tvar buf bytes.Buffer",
  "\t\twriter := multipart.NewWriter(&buf)",
  "\t\tfor key, values := range fields \x7b",
  "\t\t\tfor _, value := range values \x7b",
  "\t\t\t\tif err := writer.WriteField(key, value); err != nil \x7b",
  "\t\t\t\t\treturn nil, \"\", err",
  "\t\t\t\t\x7d",
  "\t\t\t\x7d",
  "\t\t\x7d",
  "\t\tif err := writer.Close(); err != nil \x7b",
  "\t\t\treturn nil, \"\", err",
  "\t\t\x7d",
  "\t\treturn &buf, writer.FormDataContentType(), nil",
  "\tcase strings.HasPrefix(contentType, \"application/x-www-form-urlencoded\"):",
  "\t\tfields, err := formValues(body)",
  "\t\tif err != nil \x7b",
  "\t\t\treturn nil, \"\", err",
  "\t\t\x7d",
  "\t\treturn strings.NewReader(fields.Encode()), contentType, nil",
  "\t\x7d",
  "",
  "\tdata, err := json.Marshal(body)",
  "\tif err != nil \x7b",
  "\t\treturn nil, \"\", err",
  "\t\x7d",
  "\tif contentType == \"\" \x7b",
  "\t\tcontentType = \"application/json\"",
  "\t\x7d",
  "\treturn bytes.NewReader(data), contentType, nil",
  "\x7d",
  "",
  "func formValues(body any) (url.Values, error) \x7b",
  "\tif values, ok := body.(url.Values); ok \x7b",
  "\t\treturn values, nil",
  "\t\x7d",
  "\tdata, err := json.Marshal(body)",
  "\tif err != nil \x7b",
  "\t\treturn nil, err",
  "\t\x7d",
  "\tvar fields map[string]any",
  "\tif err := json.Unmarshal(data, &fields); err != nil \x7b",
  "\t\treturn nil, err",
  "\t\x7d",
  "\tvalues := url.Values\x7b\x7d",
  "\tfor key, value := range fields \x7b",
  "\t\tif value != nil \x7b",
  "\t\t\tvalues.Set(key, fmt.Sprint(value))",
  "\t\t\x7d",
  "\t\x7d",
  "\treturn values, nil",
  "\x7d",
  "",
  "func decodeBody(data []byte, out any, responseKind string) error \x7b",
  "\tif out == nil || len(data) == 0 || responseKind == \"none\" \x7b",
  "\t\treturn nil",
  "\t\x7d",
  "\tswitch responseKind \x7b",
  "\tcase \"binary\":",
  "\t\tif target, ok := out.(*[]byte); ok \x7b",
  "\t\t\t*target = data",
  "\t\t\treturn nil",
  "\t\t\x7d",
  "\tcase \"text\":",
  "\t\tswitch target := out.(type) \x7b",
  "\t\tcase *string:",
  "\t\t\t*target = string(data)",
  "\t\t\treturn nil",
  "\t\tcase *any:",
  "\t\t\t*target = string(data)",
  "\t\t\treturn nil",
  "\t\t\x7d",
  "\t\x7d",
  "\treturn json.Unmarshal(data, out)",
  "\x7d"]

/-- **The request code**, after the header of its file. -/
def clientFile : String :=
  String.join (clientLines.map (· ++ "\n"))

end ClientGen.Go
